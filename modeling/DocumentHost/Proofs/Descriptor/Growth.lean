import DocumentHost.Proofs.Descriptor.Tended
import DocumentHost.Proofs.Host.Changes

/-!
# Descriptors only grow

A descriptor is made for one text in one language, and whatever happens to a host, neither of
the two changes.  Its slots are filled one by one, and a slot that has been filled stays as it
is.  When a document is put again, a new descriptor is made for it.
-/

namespace DocumentHost

/-- A later state of a descriptor: its document is the same, and slots that were filled hold
what they held. -/
structure Descriptor.Grows (before after : Descriptor) : Prop where
  name : after.name = before.name
  text : after.text = before.text
  tag : after.tag = before.tag
  slots : ∀ key executable, before.slots.get? key = some executable →
    after.slots.get? key = some executable

theorem Descriptor.Grows.refl (descriptor : Descriptor) : descriptor.Grows descriptor :=
  ⟨rfl, rfl, rfl, fun _ _ slot => slot⟩

theorem Descriptor.Grows.trans {before between after : Descriptor} (first : before.Grows between)
    (second : between.Grows after) : before.Grows after :=
  ⟨second.name.trans first.name, second.text.trans first.text, second.tag.trans first.tag,
    fun key executable slot => second.slots key executable (first.slots key executable slot)⟩

namespace World

/-- A later state: descriptors are made, and those that are there grow. -/
structure Grows (world after : World) : Prop where
  size : world.descriptors.size ≤ after.descriptors.size
  descriptors : ∀ id, id.index < world.descriptors.size →
    (world.descriptors.get id).Grows (after.descriptors.get id)

namespace Grows

variable {world after : World}

theorem lasting : Lasting Grows where
  refl _ := ⟨Nat.le_refl _, fun _ _ => .refl _⟩
  trans first second := by
    refine ⟨Nat.le_trans first.size second.size, fun id known => ?_⟩
    have stillKnown := Nat.lt_of_lt_of_le known first.size
    exact (first.descriptors id known).trans (second.descriptors id stillKnown)

/-- A change of descriptors that makes none. -/
theorem of_size (size : after.descriptors.size = world.descriptors.size)
    (grow : ∀ id, (world.descriptors.get id).Grows (after.descriptors.get id)) :
    Grows world after :=
  ⟨Nat.le_of_eq size.symm, fun id _ => grow id⟩

theorem of_descriptors (descriptors : after.descriptors = world.descriptors) :
    Grows world after :=
  of_size (by rw [descriptors]) fun id => by
    rw [descriptors]
    exact .refl _

theorem modifyDescriptor (world : World) (id : DescriptorId) {change : Descriptor → Descriptor}
    (grow : ∀ descriptor, Descriptor.Grows descriptor (change descriptor)) :
    Grows world (world.modifyDescriptor id change) := by
  refine of_size (Arena.size_modify ..) fun other => ?_
  exact Arena.related_modify Descriptor.Grows .refl world.descriptors id (grow _) other

theorem tolerant : Tolerant Grows :=
  .of_asides lasting fun aside => of_descriptors aside.descriptors

theorem documenting : Documenting Grows where
  lasting := lasting
  checked checked := by
    refine of_size checked.size fun id => ?_
    obtain ⟨_, _, _, same⟩ := checked.same id
    rw [same]
    exact ⟨rfl, rfl, rfl, fun _ _ slot => slot⟩
  add world descriptor _ := by
    refine ⟨?_, fun id known => ?_⟩
    · change world.descriptors.size ≤ (world.descriptors.add descriptor).2.size
      simp
    · have same : (world.addDescriptor descriptor).2.descriptors.get id =
          world.descriptors.get id := Arena.get_add_of_lt _ _ known
      rw [same]
      exact .refl _
  fill world id key executable := by
    refine of_size (size_fillSlot ..) fun other => ?_
    obtain ⟨_, same, -, stays⟩ := get_fillSlot world id key executable other
    rw [same]
    exact ⟨rfl, rfl, rfl, stays⟩
  documents _ _ := of_descriptors rfl
  release world := of_descriptors (descriptors_releaseUnheld world)

theorem linkDependent (world : World) (id dependent : DescriptorId) :
    Grows world (world.linkDependent id dependent) := by
  obtain ⟨-, size, same⟩ := get_linkDependent world id dependent
  refine of_size size fun other => ?_
  obtain ⟨_, _, changed⟩ := same other
  rw [changed]
  exact ⟨rfl, rfl, rfl, fun _ _ slot => slot⟩

theorem plantInFlow (document : Document) (name code tag : String)
    (form : String × ExecutableId) :
    (plantInFlow document name code tag form).Keeps Grows :=
  documenting.plantInFlow tolerant linkDependent document name code tag form

theorem change {allowed : Bond → Prop} (change : Change allowed world after) :
    Grows world after := by
  cases change with
  | aside aside => exact of_descriptors aside.descriptors
  | fetch name => exact documenting.fetchDocument name world
  | plant document name code tag form => exact plantInFlow document name code tag form world
  | put name text tag => exact documenting.putDocument name text tag world
  | seed name text tag form => exact documenting.seedDocument name text tag form world
  | check id => exact documenting.isValid id world
  | invalidate id => exact documenting.checked (.invalidate world id)
  | fill id key executable => exact documenting.fill world id key executable
  | depend id dependency =>
      refine modifyDescriptor world id fun descriptor => ?_
      split <;> exact ⟨rfl, rfl, rfl, fun _ _ slot => slot⟩
  | reclaim =>
      refine lasting.reclaim (fun state id => ?_) documenting.release world
      exact modifyDescriptor state id fun _ => ⟨rfl, rfl, rfl, fun _ _ slot => slot⟩
  | bind bond known free unbound permitted => exact of_descriptors rfl
  | unbind executable key => exact of_descriptors rfl

/-- By induction on the chain. -/
theorem changes {allowed : Bond → Prop} (changes : Changes allowed world after) :
    Grows world after := by
  induction changes with
  | refl => exact lasting.refl world
  | tail _ step ih => exact lasting.trans ih (change step)

end Grows

end World

end DocumentHost
