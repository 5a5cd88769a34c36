import DocumentHost.Files.Resolve
import DocumentHost.Host.Descriptor
import DocumentHost.Host.Reclaim

/-!
# Document sources

A source hands out the descriptors of documents by name and keeps them as long
as they are valid.  A source in memory has the documents that were put in; a
source of files reads a document when it is asked for it, and again when the
descriptor it has is no longer valid.
-/

namespace DocumentHost

namespace Source

/-- A source in memory. -/
def inMemory (identifier : String) : Source :=
  { identifier, kind := .memory }

/-- A source of files; its identifier is the base directory. -/
def ofFiles (settings : FileSettings) : Source :=
  { identifier := settings.basePath, kind := .files settings }

end Source

/-- Change the documents that the source keeps. -/
def World.modifyDocuments (world : World)
    (change : NameTable DescriptorId → NameTable DescriptorId) : World :=
  { world with source := world.source.map fun source =>
      { source with documents := change source.documents } }

/-- The descriptor that the source keeps under a name. -/
def World.kept? (world : World) (name : String) : Option DescriptorId :=
  world.source.bind fun source => source.documents.get? name

/-- Forget the descriptors that have been invalidated, and what only they held. -/
def World.sweep (world : World) : World :=
  (world.modifyDocuments fun documents =>
    documents.retain fun id => !(world.descriptors.get id).invalidated).releaseUnheld

/-- Forget the descriptor under a name, and what only it held. -/
def World.forget (world : World) (name : String) : World :=
  (world.modifyDocuments fun documents => documents.erase name).releaseUnheld

/-- The identifier of the source. -/
def World.sourceIdentifier (world : World) : String :=
  world.source.elim "" Source.identifier

/-- Put a document into the source, in place of one of its name, which becomes
invalid. -/
def putDocument {ε : Type} (name text tag : String) : HostM ε DescriptorId := do
  let world ← get
  let replaced := world.kept? name
  let id ← newDescriptor name world.sourceIdentifier tag text
  modify fun world => world.modifyDocuments fun documents => documents.insert name id
  match replaced with
  | some old => modify fun world => world.invalidate old
  | none => pure ()
  return id

/-- Install a compiled form in a descriptor unless its slot is filled. -/
def installForm {ε : Type} (id : DescriptorId) (form : Option (String × ExecutableId)) :
    HostM ε Unit := do
  match form with
  | some (key, executable) => modify fun world => (world.fillSlot id key executable).2
  | none => pure ()

/-- Put a document into the source unless one of its name is there that has not been
invalidated.  A compiled form may come with it. -/
def seedDocument {ε : Type} (name text tag : String)
    (form : Option (String × ExecutableId)) : HostM ε DescriptorId := do
  let world ← get
  let standing := (world.kept? name).filter fun id =>
    !(world.descriptors.get id).invalidated
  match standing with
  | some id =>
      installForm id form
      return id
  | none =>
      modify World.sweep
      let id ← newDescriptor name world.sourceIdentifier tag text
      installForm id form
      modify fun world => world.modifyDocuments fun documents => documents.insert name id
      return id

/-- Read the file that a name stands for. -/
def readDocument (settings : FileSettings) (name : String) :
    HostM DocumentError DescriptorId := do
  let world ← get
  match resolve? settings world.files name with
  | none => throw (.notFound name)
  | some path =>
      let modified ← HostM.ofExcept
        ((world.files.modified path).mapError (DocumentError.file path))
      let text ← HostM.ofExcept
        ((world.files.readText path).mapError (DocumentError.file path))
      let lastChecked ← readClock
      let (id, changed) := (← get).addDescriptor
        { name
          partition := world.sourceIdentifier
          tag := (Path.extension? path).getD ""
          text
          timestamp := modified
          backing := some
            { path
              modified
              policy := ⟨settings.recheck, settings.minCheckInterval⟩
              lastChecked } }
      set changed
      return id

/-- The valid descriptor of a name. -/
def fetchDocument (name : String) : HostM DocumentError DescriptorId := do
  let world ← get
  let valid? ← (match world.kept? name with
    | some id => do
        if ← isValid id then return some id else return none
    | none => pure none : HostM DocumentError (Option DescriptorId))
  match valid?, world.source.map Source.kind with
  | some id, _ => return id
  | none, some (.files settings) =>
      let fresh ← readDocument settings name
      modify World.sweep
      modify fun world => world.modifyDocuments fun documents => documents.insert name fresh
      return fresh
  | none, _ =>
      modify fun world => world.forget name
      throw (.notFound name)

/-- The descriptors of a list of names. -/
def fetchDocuments : List String → HostM DocumentError (List DescriptorId)
  | [] => pure []
  | name :: rest => do
      let id ← fetchDocument name
      let ids ← fetchDocuments rest
      return id :: ids

/-- Descriptors in the order of their names. -/
def World.sortedByName (world : World) (ids : List DescriptorId) : List DescriptorId :=
  ids.mergeSort fun first second =>
    decide ((world.descriptors.get first).name ≤ (world.descriptors.get second).name)

/-- The descriptors that the source keeps and that have not been invalidated. -/
def World.standing (world : World) : List DescriptorId :=
  (world.source.elim [] fun source => source.documents.values).filter fun id =>
    !(world.descriptors.get id).invalidated

/-- All documents of the source, in the order of their names. -/
def listDocuments : HostM DocumentError (List DescriptorId) := do
  let world ← get
  match world.source.map Source.kind with
  | some (.files settings) =>
      let names ← HostM.ofExcept
        ((documentNames settings world.files).mapError (DocumentError.file settings.basePath))
      let read ← fetchDocuments names
      let world ← get
      let seeded := world.standing.filter fun id => (world.descriptors.get id).backing.isNone
      return world.sortedByName (read ++ seeded)
  | _ => return world.sortedByName world.standing

end DocumentHost
