import DocumentHost.Proofs.Descriptor.Sources
import DocumentHost.Proofs.Descriptor.Tended
import DocumentHost.Proofs.Host.Obtaining

/-!
# What the work on documents leaves alone

While documents are taken from the source, compiled and linked, files, globals, sinks and
adapters stay as they are, and so does a context that is held from outside.  Executables are
made, and those that are there stay.
-/

namespace DocumentHost

/-- A source without the descriptors that it keeps. -/
def Source.emptied (source : Source) : Source :=
  { source with documents := {} }

namespace World

/-- A later state in which only documents have been worked on. -/
structure Beside (context : ContextId) (world after : World) : Prop where
  rest : ∃ descriptors source clock contexts executables journal,
    after = { world with descriptors, source, clock, contexts, executables, journal }
  source : after.source.map Source.emptied = world.source.map Source.emptied
  clock : world.clock.nanoseconds ≤ after.clock.nanoseconds
  size : after.contexts.size = world.contexts.size
  spares : context ∈ world.holdings.contexts →
    after.contexts.get context = world.contexts.get context
  known : world.executables.size ≤ after.executables.size
  executables : ∀ id, id.index < world.executables.size →
    after.executables.get id = world.executables.get id

namespace Beside

variable {context : ContextId} {world after : World}

theorem lasting (context : ContextId) : Lasting (Beside context) where
  refl world := ⟨⟨_, _, _, _, _, _, rfl⟩, rfl, Int.le_refl _, rfl, fun _ => rfl, Nat.le_refl _,
    fun _ _ => rfl⟩
  trans {world between after} first second := by
    obtain ⟨_, _, _, _, _, _, firstRest⟩ := first.rest
    obtain ⟨descriptors, source, clock, contexts, executables, journal, secondRest⟩ := second.rest
    have holdings : between.holdings = world.holdings := by rw [firstRest]
    refine ⟨⟨descriptors, source, clock, contexts, executables, journal, ?_⟩,
      second.source.trans first.source, Int.le_trans first.clock second.clock,
      second.size.trans first.size, ?_, Nat.le_trans first.known second.known, ?_⟩
    · rw [secondRest, firstRest]
    · intro held
      rw [second.spares (by rwa [holdings]), first.spares held]
    · intro id known
      rw [second.executables id (Nat.lt_of_lt_of_le known first.known), first.executables id known]

/-- A later state that differs in descriptors, the source and the clock only. -/
theorem of_documents {descriptors : Descriptors} {source : Option Source} {clock : Instant}
    (same : source.map Source.emptied = world.source.map Source.emptied)
    (passes : world.clock.nanoseconds ≤ clock.nanoseconds) :
    Beside context world { world with descriptors, source, clock } :=
  ⟨⟨_, _, _, _, _, _, rfl⟩, same, passes, rfl, fun _ => rfl, Nat.le_refl _, fun _ _ => rfl⟩

theorem files (beside : Beside context world after) : after.files = world.files := by
  obtain ⟨_, _, _, _, _, _, rest⟩ := beside.rest
  rw [rest]

theorem modifyDescriptor (world : World) (id : DescriptorId) (change : Descriptor → Descriptor) :
    Beside context world (world.modifyDescriptor id change) :=
  of_documents rfl (Int.le_refl _)

theorem tick (world : World) : Beside context world world.tick :=
  of_documents rfl (Looked.tick default world).clock

theorem releaseUnheld (world : World) : Beside context world world.releaseUnheld := by
  have only := ReleasesOnly.releaseUnheld world
  have clock : world.releaseUnheld.clock = world.clock := by rw [only.rest]
  refine ⟨⟨_, _, _, _, _, _, only.rest⟩, ?_, ?_, only.size, fun held => ?_, ?_, fun id _ => ?_⟩
  · rw [only.rest]
  · rw [clock]
  · exact only.spares context (by simp [heldContexts, held])
  · rw [only.rest]
  · rw [only.rest]

theorem documenting (context : ContextId) : Documenting (Beside context) where
  lasting := lasting context
  checked checked := by
    obtain ⟨descriptors, clock, rest⟩ := checked.rest
    have passes := checked.clock
    rw [rest] at passes ⊢
    exact of_documents rfl passes
  add world descriptor _ := of_documents rfl (Int.le_refl _)
  fill world id key executable := by
    unfold World.fillSlot
    split
    · exact (lasting context).refl world
    · exact modifyDescriptor world id _
  documents world change := by
    refine of_documents ?_ (Int.le_refl _)
    cases world.source <;> rfl
  release := releaseUnheld

/-- A new executable is there, and time has passed. -/
theorem addExecutable (world : World) (executable : Executable) :
    Beside context world
      { world.tick with executables := (world.executables.add executable).2 } := by
  refine (lasting context).trans (tick world) ?_
  refine ⟨⟨_, _, _, _, _, _, rfl⟩, rfl, Int.le_refl _, rfl, fun _ => rfl, ?_, fun id known => ?_⟩
  · change world.executables.size ≤ _
    simp
  · exact Arena.get_add_of_lt _ _ known

end Beside

end World

end DocumentHost
