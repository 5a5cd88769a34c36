import DocumentHost.Host.Source
import DocumentHost.Proofs.Host.Evaluation

/-!
# Taking documents from a source, step by step

What it comes to when a document is fetched, read from its file, put into the source or
seeded: one equation for each way it can go.
-/

namespace DocumentHost

variable {ε : Type}

/-- A descriptor as it is made, before anything has been done with it. -/
structure Descriptor.Fresh (name : String) (descriptor : Descriptor) : Prop where
  name : descriptor.name = name
  slots : descriptor.slots = {}
  dependencies : descriptor.dependencies = []
  dependents : descriptor.dependents = []
  unmarked : descriptor.invalidated = false
  held : descriptor.dropped = false

/-- What a source keeps is no descriptor's business. -/
theorem World.descriptors_modifyDocuments (world : World)
    (change : NameTable DescriptorId → NameTable DescriptorId) :
    (world.modifyDocuments change).descriptors = world.descriptors := rfl

/-- What is done when the source has no valid descriptor of a name. -/
def reloadDocument (kind : Option SourceKind) (name : String) :
    HostM DocumentError DescriptorId := do
  match kind with
  | some (.files settings) =>
      let fresh ← readDocument settings name
      modify World.sweep
      modify fun world => world.modifyDocuments fun documents => documents.insert name fresh
      return fresh
  | _ =>
      modify fun world => world.forget name
      throw (.notFound name)

theorem eval_fetchDocument_of_absent {name : String} {world : World}
    (absent : world.kept? name = none) :
    (fetchDocument name).eval world =
      (reloadDocument (world.source.map Source.kind) name).eval world := by
  rw [fetchDocument, HostM.eval_bind_of_ok (HostM.eval_get _), absent]
  rcases world.source.map Source.kind with _ | _ | _ <;> rfl

theorem eval_fetchDocument_of_kept {name : String} {world : World} {id : DescriptorId}
    (kept : world.kept? name = some id) :
    (fetchDocument name).eval world =
      match (isValid id).eval world with
      | (.ok true, between) => (.ok id, between)
      | (.ok false, between) =>
          (reloadDocument (world.source.map Source.kind) name).eval between
      | (.error error, between) => (.error error, between) := by
  rw [fetchDocument, HostM.eval_bind_of_ok (HostM.eval_get _), kept]
  dsimp only
  rw [HostM.eval_bind, HostM.eval_bind]
  rcases (isValid id).eval world with ⟨error | _ | _, between⟩
  · rfl
  · rcases world.source.map Source.kind with _ | _ | _ <;> rfl
  · rfl

/-- The descriptor of a document that is read from a file. -/
def World.fileDescriptor (world : World) (settings : FileSettings) (name path : String)
    (modified : Instant) (text : String) : Descriptor where
  name
  partition := world.sourceIdentifier
  tag := (Path.extension? path).getD ""
  text
  timestamp := modified
  backing := some
    { path
      modified
      policy := ⟨settings.recheck, settings.minCheckInterval⟩
      lastChecked := world.clock }

theorem World.fresh_fileDescriptor (world : World) (settings : FileSettings) (name path : String)
    (modified : Instant) (text : String) :
    (world.fileDescriptor settings name path modified text).Fresh name :=
  ⟨rfl, rfl, rfl, rfl, rfl, rfl⟩

theorem eval_readDocument_of_readable {settings : FileSettings} {name path text : String}
    {modified : Instant} {world : World} (resolved : resolve? settings world.files name = some path)
    (dated : world.files.modified path = .ok modified)
    (read : world.files.readText path = .ok text) :
    (readDocument settings name).eval world =
      let (id, after) :=
        world.tick.addDescriptor (world.fileDescriptor settings name path modified text)
      (.ok id, after) := by
  rw [readDocument, HostM.eval_bind_of_ok (HostM.eval_get _), resolved]
  dsimp only
  rw [dated, read]
  rfl

/-- A document is read from the file that its name stands for, as the file is then. -/
theorem eval_readDocument (settings : FileSettings) (name : String) (world : World) :
    (∃ error, (readDocument settings name).eval world = (.error error, world)) ∨
      ∃ path modified text,
        resolve? settings world.files name = some path ∧
        world.files.modified path = .ok modified ∧
        world.files.readText path = .ok text ∧
        (readDocument settings name).eval world =
          let (id, after) :=
            world.tick.addDescriptor (world.fileDescriptor settings name path modified text)
          (.ok id, after) := by
  cases resolved : resolve? settings world.files name with
  | none =>
      rw [readDocument, HostM.eval_bind_of_ok (HostM.eval_get _), resolved]
      exact .inl ⟨_, rfl⟩
  | some path =>
  cases dated : world.files.modified path with
  | error reason =>
      rw [readDocument, HostM.eval_bind_of_ok (HostM.eval_get _), resolved]
      dsimp only
      rw [dated]
      exact .inl ⟨_, rfl⟩
  | ok modified =>
  cases read : world.files.readText path with
  | error reason =>
      rw [readDocument, HostM.eval_bind_of_ok (HostM.eval_get _), resolved]
      dsimp only
      rw [dated, read]
      exact .inl ⟨_, rfl⟩
  | ok text =>
      exact .inr ⟨path, modified, text, rfl, dated, read,
        eval_readDocument_of_readable resolved dated read⟩

theorem eval_reloadDocument_of_files (settings : FileSettings) (name : String) (world : World) :
    (reloadDocument (some (.files settings)) name).eval world =
      match (readDocument settings name).eval world with
      | (.ok id, between) =>
          (.ok id, between.sweep.modifyDocuments fun documents => documents.insert name id)
      | (.error error, between) => (.error error, between) := by
  rw [reloadDocument, HostM.eval_bind]
  rcases (readDocument settings name).eval world with ⟨_ | _, _⟩ <;> rfl

/-- A source in memory, or none at all, has nothing to read again. -/
theorem eval_reloadDocument_of_memory {kind : Option SourceKind}
    (memory : ∀ settings, kind ≠ some (.files settings)) (name : String) (world : World) :
    (reloadDocument kind name).eval world = (.error (.notFound name), world.forget name) := by
  rcases kind with _ | _ | settings
  · rfl
  · rfl
  · exact absurd rfl (memory settings)

/-- The descriptor of a text that comes from no file. -/
def Descriptor.ofText (name partition tag text : String) (timestamp : Instant) : Descriptor :=
  { name, partition, tag, text, timestamp }

theorem Descriptor.fresh_ofText (name partition tag text : String) (timestamp : Instant) :
    (Descriptor.ofText name partition tag text timestamp).Fresh name :=
  ⟨rfl, rfl, rfl, rfl, rfl, rfl⟩

/-- A document is put into the source in place of the one that was there. -/
theorem eval_putDocument (name text tag : String) (world : World) :
    (putDocument name text tag : HostM ε _).eval world =
      let made := world.tick.addDescriptor
        (.ofText name world.sourceIdentifier tag text world.clock)
      let stored := made.2.modifyDocuments fun documents => documents.insert name made.1
      (.ok made.1, (world.kept? name).elim stored stored.invalidate) := by
  cases kept : world.kept? name with
  | none =>
      rw [putDocument, HostM.eval_bind_of_ok (HostM.eval_get _), kept]
      rfl
  | some old =>
      rw [putDocument, HostM.eval_bind_of_ok (HostM.eval_get _), kept]
      rfl

/-- A document that stands is not replaced. -/
theorem eval_seedDocument_of_standing {name text tag : String}
    {form : Option (String × ExecutableId)} {world : World} {id : DescriptorId}
    (kept : world.kept? name = some id)
    (unmarked : (world.descriptors.get id).invalidated = false) :
    (seedDocument name text tag form : HostM ε _).eval world =
      (.ok id, form.elim world fun form => (world.fillSlot id form.1 form.2).2) := by
  rw [seedDocument, HostM.eval_bind_of_ok (HostM.eval_get _), kept, Option.filter_some,
    if_pos (by simp [unmarked])]
  cases form <;> rfl

/-- Where no document stands, one is made. -/
theorem eval_seedDocument_of_vacant {name text tag : String}
    {form : Option (String × ExecutableId)} {world : World}
    (vacant : ∀ id, world.kept? name = some id →
      (world.descriptors.get id).invalidated = true) :
    (seedDocument name text tag form : HostM ε _).eval world =
      let made := world.sweep.tick.addDescriptor
        (.ofText name world.sourceIdentifier tag text world.sweep.clock)
      (.ok made.1,
        (form.elim made.2 fun form => (made.2.fillSlot made.1 form.1 form.2).2).modifyDocuments
          fun documents => documents.insert name made.1) := by
  have none : ((world.kept? name).filter fun id => !(world.descriptors.get id).invalidated) =
      none := by
    cases kept : world.kept? name with
    | none => rfl
    | some id => simp [vacant id kept]
  rw [seedDocument, HostM.eval_bind_of_ok (HostM.eval_get _), none]
  cases form <;> rfl

end DocumentHost
