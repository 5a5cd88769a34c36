import DocumentHost.Proofs.Host.Changes
import DocumentHost.Proofs.Language.Univocal

/-!
# Programs stay what they are

An executable is made once, for a document and with a setting, and nothing that a host does
changes what it is.  Nor do the operations on documents and executables touch the adapters that
programs are compiled with.
-/

namespace DocumentHost

namespace World

/-- Executables are made, and those that are there stay what they were made. -/
structure SamePrograms (world after : World) : Prop where
  size : world.executables.size ≤ after.executables.size
  programs : ∀ id, id.index < world.executables.size →
    SameProgram (world.executables.get id) (after.executables.get id)

namespace SamePrograms

variable {world after : World}

theorem of_executables (executables : after.executables = world.executables) :
    SamePrograms world after := by
  refine ⟨Nat.le_of_eq (by rw [executables]), fun id _ => ?_⟩
  rw [executables]
  exact .refl _

theorem lasting : Lasting SamePrograms where
  refl _ := of_executables rfl
  trans first second := by
    refine ⟨Nat.le_trans first.size second.size, fun id known => ?_⟩
    exact (first.programs id known).trans
      (second.programs id (Nat.lt_of_lt_of_le known first.size))

theorem tolerant : Tolerant SamePrograms :=
  .of_contexts lasting (fun outside => ⟨outside.executables, outside.programs⟩) fun _ _ _ =>
    of_executables rfl

theorem heedless : Heedless SamePrograms :=
  ⟨tolerant, fun _ _ _ _ => of_executables rfl⟩

end SamePrograms

/-- An executable that has been compiled from a document. -/
structure Form (world : World) (executable : ExecutableId) (setting : Setting)
    (document : Document) (segments : List Segment) : Prop where
  known : executable.index < world.executables.size
  documentName : (world.executables.get executable).documentName = document.name
  partition : (world.executables.get executable).partition = document.partition
  setting : (world.executables.get executable).setting = setting
  segments : (world.executables.get executable).segments = segments

namespace Form

variable {world after : World} {executable : ExecutableId} {setting : Setting}
  {document : Document} {segments : List Segment}

theorem later (form : world.Form executable setting document segments)
    (same : SamePrograms world after) : after.Form executable setting document segments := by
  have program := same.programs executable form.known
  exact ⟨Nat.lt_of_lt_of_le form.known same.size,
    program.documentName.symm.trans form.documentName,
    program.partition.symm.trans form.partition, program.setting.symm.trans form.setting,
    program.segments.symm.trans form.segments⟩

theorem add (world : World) {made : Executable} (documentName : made.documentName = document.name)
    (partition : made.partition = document.partition) :
    Form { world with executables := (world.executables.add made).2 }
      (world.executables.add made).1 made.setting document made.segments := by
  have found : (world.executables.add made).2.get (world.executables.add made).1 = made :=
    Arena.get_add_self ..
  refine ⟨Arena.known_add .., ?_, ?_, congrArg Executable.setting found,
    congrArg Executable.segments found⟩
  · exact (congrArg Executable.documentName found).trans documentName
  · exact (congrArg Executable.partition found).trans partition

/-- Whether programs are prepared before or not, what is made has the segments. -/
theorem of_makeExecutable
    (made : (makeExecutable setting document segments).eval world = (.ok executable, after)) :
    after.Form executable setting document segments := by
  rw [makeExecutable, HostM.eval_bind_of_ok (HostM.eval_readClock _)] at made
  dsimp only at made
  split at made
  · obtain ⟨_, between, -, added⟩ := HostM.eval_bind_eq_ok_iff.1 made
    cases added
    exact add between rfl rfl
  · cases made
    exact add world.tick rfl rfl

end Form

/-! ## Changes that rewrite no program -/

/-- A chain of changes that leaves executables what they are. -/
structure Proceeds (allowed : Bond → Prop) (world after : World) : Prop where
  changes : Changes allowed world after
  programs : SamePrograms world after

theorem Proceeds.lasting (allowed : Bond → Prop) : Lasting (Proceeds allowed) where
  refl world := ⟨.refl, SamePrograms.lasting.refl world⟩
  trans first second := ⟨first.changes.trans second.changes,
    SamePrograms.lasting.trans first.programs second.programs⟩

/-- Whatever is compiled and run proceeds. -/
theorem Proceeds.executing (allowed : Bond → Prop) : Executing (Proceeds allowed) where
  tolerant :=
    { lasting := lasting allowed
      outside := fun outside =>
        ⟨Changes.tolerant.outside outside, SamePrograms.tolerant.outside outside⟩
      operate := fun world id operation => ⟨Changes.tolerant.operate world id operation,
        SamePrograms.tolerant.operate world id operation⟩
      releaseNow := fun world id unbegun => ⟨Changes.tolerant.releaseNow world id unbegun,
        SamePrograms.tolerant.releaseNow world id unbegun⟩ }
  fetch name world :=
    ⟨Changes.executing.fetch name world, SamePrograms.heedless.executing.fetch name world⟩
  obtains setting name world :=
    ⟨Changes.executing.obtains setting name world,
      SamePrograms.heedless.executing.obtains setting name world⟩
  depend world id dependency := ⟨Changes.executing.depend world id dependency,
    SamePrograms.heedless.executing.depend world id dependency⟩

theorem Proceeds.newContext (allowed : Bond → Prop) (output errorOutput : SinkId) :
    (newContext output errorOutput : HostM ε ContextId).Keeps (Proceeds allowed) := fun world =>
  ⟨.single (.aside (.addContext world rfl)), .of_executables rfl⟩

end World

/-! ## Adapters -/

namespace SameAdapters

theorem lasting : Lasting SameAdapters where
  refl _ := ⟨rfl, rfl⟩
  trans first second := first.trans second

theorem tolerant : Tolerant SameAdapters :=
  .of_contexts lasting (fun outside => ⟨outside.adapters.symm, outside.registries.symm⟩)
    fun _ _ _ => ⟨rfl, rfl⟩

theorem heedless : Heedless SameAdapters :=
  ⟨tolerant, fun _ _ _ _ => ⟨rfl, rfl⟩⟩

end SameAdapters

end DocumentHost
