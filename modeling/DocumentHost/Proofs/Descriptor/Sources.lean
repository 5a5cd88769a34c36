import DocumentHost.Proofs.Descriptor.Fetching
import DocumentHost.Proofs.Descriptor.Later

/-!
# What operations of a document source keep

The operations of a source make descriptors, fill slots, check validity, and change which
descriptors are kept.  A relation between states that lasts through each of these steps lasts
through the operations.
-/

namespace DocumentHost

open World

/-! ## Fetching documents -/

theorem Lasting.fetchDocuments {Related : World → World → Prop} (lasting : Lasting Related)
    (fetch : ∀ name, (fetchDocument name).Keeps Related) (names : List String) :
    (fetchDocuments names).Keeps Related := by
  induction names with
  | nil => exact lasting.pure _
  | cons name rest ih =>
      exact lasting.bind (fetch name) fun id => lasting.bind ih fun ids => lasting.pure _

theorem Lasting.listDocuments {Related : World → World → Prop} (lasting : Lasting Related)
    (fetch : ∀ name, (fetchDocument name).Keeps Related) : listDocuments.Keeps Related := by
  unfold DocumentHost.listDocuments
  refine Lasting.get fun world => ?_
  dsimp only
  split
  · refine lasting.bind (lasting.ofExcept _) (fun names => ?_) world
    refine lasting.bind (lasting.fetchDocuments fetch names) fun read => ?_
    exact Lasting.get fun world => lasting.pure _ world
  · exact lasting.pure _ world

/-- A lasting relation that every step of fetching a document keeps. -/
structure Fetching (Related : World → World → Prop) : Prop where
  lasting : Lasting Related
  checked : ∀ {world after : World}, Checked world after → Related world after
  read : ∀ (world : World) (settings : FileSettings) (name path : String) (modified : Instant)
    (text : String), Related world (world.tick.addDescriptor
      (world.fileDescriptor settings name path modified text)).2
  sweep : ∀ world : World, Related world world.sweep
  insert : ∀ (world : World) (name : String) (id : DescriptorId),
    Related world (world.modifyDocuments fun documents => documents.insert name id)
  forget : ∀ (world : World) (name : String), Related world (world.forget name)

namespace Fetching

variable {Related : World → World → Prop}

/-- A relation that heeds descriptors only. -/
theorem of_descriptors (lasting : Lasting Related)
    (same : ∀ {world after : World}, after.descriptors = world.descriptors → Related world after)
    (checked : ∀ {world after : World}, Checked world after → Related world after)
    (read : ∀ (world : World) (settings : FileSettings) (name path : String) (modified : Instant)
      (text : String), Related world (world.tick.addDescriptor
        (world.fileDescriptor settings name path modified text)).2) : Fetching Related where
  lasting := lasting
  checked := checked
  read := read
  sweep _ := same (descriptors_releaseUnheld _)
  insert _ _ _ := same rfl
  forget _ _ := same (descriptors_releaseUnheld _)

theorem reloadDocument (fetching : Fetching Related) (kind : Option SourceKind) (name : String) :
    (reloadDocument kind name).Keeps Related := by
  intro world
  rw [HostM.KeepsFrom]
  by_cases files : ∃ settings, kind = some (.files settings)
  · obtain ⟨settings, rfl⟩ := files
    rw [eval_reloadDocument_of_files]
    rcases eval_readDocument settings name world with
      ⟨error, failed⟩ | ⟨path, modified, text, -, -, -, read⟩
    · rw [failed]
      exact fetching.lasting.refl world
    · rw [read]
      have made := fetching.read world settings name path modified text
      exact fetching.lasting.trans (fetching.lasting.trans made (fetching.sweep _))
        (fetching.insert ..)
  · rw [eval_reloadDocument_of_memory fun settings isFiles => files ⟨settings, isFiles⟩]
    exact fetching.forget world name

theorem fetchDocument (fetching : Fetching Related) (name : String) :
    (fetchDocument name).Keeps Related := by
  intro world
  rw [HostM.KeepsFrom]
  cases kept : world.kept? name with
  | none =>
      rw [eval_fetchDocument_of_absent kept]
      exact fetching.reloadDocument _ name world
  | some id =>
      have checks : Related world _ := fetching.checked (isValid_keeps id world)
      rw [eval_fetchDocument_of_kept kept]
      rcases judged : (isValid id).eval world with ⟨error | _ | _, between⟩ <;>
        rw [judged] at checks
      · exact checks
      · exact fetching.lasting.trans checks (fetching.reloadDocument _ name between)
      · exact checks

end Fetching

/-! ## Steps of a source -/

/-- A lasting relation that every step of putting documents into a source keeps. -/
structure Storing (Related : World → World → Prop) : Prop where
  lasting : Lasting Related
  checked : ∀ {world after : World}, Checked world after → Related world after
  make : ∀ {ε : Type} (name partition tag text : String),
    (newDescriptor name partition tag text : HostM ε DescriptorId).Keeps Related
  fill : ∀ (world : World) (id : DescriptorId) (key : String) (executable : ExecutableId),
    Related world (world.fillSlot id key executable).2
  documents : ∀ (world : World) (change : NameTable DescriptorId → NameTable DescriptorId),
    Related world (world.modifyDocuments change)
  release : ∀ world : World, Related world world.releaseUnheld

namespace Storing

variable {ε : Type} {Related : World → World → Prop}

theorem readClock (storing : Storing Related) : (readClock : HostM ε Instant).Keeps Related :=
  Lasting.readClock fun world => storing.checked (.looked (.tick default world))

theorem sweep (storing : Storing Related) (world : World) : Related world world.sweep :=
  storing.lasting.trans (storing.documents world _) (storing.release _)

theorem forget (storing : Storing Related) (world : World) (name : String) :
    Related world (world.forget name) :=
  storing.lasting.trans (storing.documents world _) (storing.release _)

theorem isValid (storing : Storing Related) (id : DescriptorId) : (isValid id).Keeps Related :=
  fun world => storing.checked (isValid_keeps id world)

theorem installForm (storing : Storing Related) (id : DescriptorId)
    (form : Option (String × ExecutableId)) :
    (installForm id form : HostM ε Unit).Keeps Related := by
  cases form with
  | none => exact storing.lasting.pure _
  | some form => exact Lasting.modify fun world => storing.fill world id form.1 form.2

theorem putDocument (storing : Storing Related) (name text tag : String) :
    (putDocument name text tag : HostM ε DescriptorId).Keeps Related := by
  unfold DocumentHost.putDocument
  refine Lasting.get fun world => ?_
  refine storing.lasting.bind (storing.make _ _ _ _) (fun id => ?_) world
  refine storing.lasting.bind
    (Lasting.modify fun world => storing.documents world _) fun _ => ?_
  cases world.kept? name with
  | none => exact storing.lasting.pure _
  | some old =>
      refine storing.lasting.bind (Lasting.modify fun world => ?_) fun _ =>
        storing.lasting.pure _
      exact storing.checked (.invalidate world old)

theorem seedDocument (storing : Storing Related) (name text tag : String)
    (form : Option (String × ExecutableId)) :
    (seedDocument name text tag form : HostM ε DescriptorId).Keeps Related := by
  unfold DocumentHost.seedDocument
  refine Lasting.get fun world => ?_
  dsimp only
  split
  · exact storing.lasting.bind (storing.installForm _ form)
      (fun _ => storing.lasting.pure _) world
  · refine storing.lasting.bind (Lasting.modify storing.sweep) (fun _ => ?_) world
    refine storing.lasting.bind (storing.make _ _ _ _) fun id => ?_
    refine storing.lasting.bind (storing.installForm id form) fun _ => ?_
    exact storing.lasting.bind
      (Lasting.modify fun world => storing.documents world _) fun _ =>
        storing.lasting.pure _

/-- What is done with a name of which there is no valid descriptor is given. -/
theorem fetchDocument (storing : Storing Related) {name : String}
    (reload : ∀ settings, (readDocument settings name).Keeps Related) :
    (fetchDocument name).Keeps Related := by
  unfold DocumentHost.fetchDocument
  refine Lasting.get fun world => ?_
  refine storing.lasting.bind ?_ (fun valid? => ?_) world
  · split
    · refine storing.lasting.bind (storing.isValid _) fun valid => ?_
      cases valid <;> exact storing.lasting.pure _
    · exact storing.lasting.pure _
  · split
    · exact storing.lasting.pure _
    · refine storing.lasting.bind (reload _) fun fresh => ?_
      refine storing.lasting.bind (Lasting.modify storing.sweep) fun _ => ?_
      exact storing.lasting.bind
        (Lasting.modify fun world => storing.documents world _) fun _ =>
          storing.lasting.pure _
    · exact storing.lasting.bind
        (Lasting.modify fun world => storing.forget world name) fun _ =>
          storing.lasting.throw _

end Storing

/-- A lasting relation that every step of the operations of a source keeps. -/
structure Documenting (Related : World → World → Prop) : Prop where
  lasting : Lasting Related
  checked : ∀ {world after : World}, Checked world after → Related world after
  add : ∀ (world : World) {descriptor : Descriptor}, descriptor.dependents = [] →
    Related world (world.addDescriptor descriptor).2
  fill : ∀ (world : World) (id : DescriptorId) (key : String) (executable : ExecutableId),
    Related world (world.fillSlot id key executable).2
  documents : ∀ (world : World) (change : NameTable DescriptorId → NameTable DescriptorId),
    Related world (world.modifyDocuments change)
  release : ∀ world : World, Related world world.releaseUnheld

namespace Documenting

variable {ε : Type} {Related : World → World → Prop}

theorem newDescriptor (documenting : Documenting Related) (name partition tag text : String) :
    (newDescriptor name partition tag text : HostM ε DescriptorId).Keeps Related := by
  unfold DocumentHost.newDescriptor
  refine documenting.lasting.bind (Lasting.readClock fun world =>
    documenting.checked (.looked (.tick default world))) fun timestamp => ?_
  refine Lasting.get fun world => ?_
  exact documenting.add world rfl

theorem storing (documenting : Documenting Related) : Storing Related :=
  { documenting with make := fun _ _ _ _ => documenting.newDescriptor _ _ _ _ }

theorem sweep (documenting : Documenting Related) (world : World) : Related world world.sweep :=
  documenting.storing.sweep world

theorem isValid (documenting : Documenting Related) (id : DescriptorId) :
    (isValid id).Keeps Related :=
  documenting.storing.isValid id

theorem putDocument (documenting : Documenting Related) (name text tag : String) :
    (putDocument name text tag : HostM ε DescriptorId).Keeps Related :=
  documenting.storing.putDocument name text tag

theorem seedDocument (documenting : Documenting Related) (name text tag : String)
    (form : Option (String × ExecutableId)) :
    (seedDocument name text tag form : HostM ε DescriptorId).Keeps Related :=
  documenting.storing.seedDocument name text tag form

theorem readDocument (documenting : Documenting Related) (settings : FileSettings)
    (name : String) : (readDocument settings name).Keeps Related := by
  unfold DocumentHost.readDocument
  refine Lasting.get fun world => ?_
  dsimp only
  split
  · exact documenting.lasting.throw _ world
  · refine documenting.lasting.bind (documenting.lasting.ofExcept _) (fun modified => ?_) world
    refine documenting.lasting.bind (documenting.lasting.ofExcept _) fun text => ?_
    refine documenting.lasting.bind documenting.storing.readClock fun checked => ?_
    refine Lasting.get fun world => ?_
    exact documenting.add world rfl

theorem fetchDocument (documenting : Documenting Related) (name : String) :
    (fetchDocument name).Keeps Related :=
  documenting.storing.fetchDocument fun settings => documenting.readDocument settings name

theorem listDocuments (documenting : Documenting Related) : listDocuments.Keeps Related :=
  documenting.lasting.listDocuments documenting.fetchDocument

end Documenting

theorem World.Later.documenting : Documenting Later where
  lasting := Later.lasting
  checked checked := checked.later
  add world _ unlinked := .addDescriptor world unlinked
  fill world id key executable := by
    unfold World.fillSlot
    split
    · exact Later.lasting.refl world
    · exact .modifyDescriptor world id (fun _ => rfl) (fun _ => rfl) fun _ dropped => dropped
  documents _ _ := .of_descriptors rfl
  release world := .of_descriptors (descriptors_releaseUnheld world)

end DocumentHost
