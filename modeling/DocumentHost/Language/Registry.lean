import DocumentHost.Host.World

/-!
# Registries of adapters

A registry answers which adapter stands for a tag or a filename extension, by what its index
has there.  Among several the adapter that the current context used last is kept, so that a
run does not change its language; otherwise the highest priority wins, and the
earliest registration among equals.
-/

namespace DocumentHost

/-- The extension of a document name: what follows the last dot of its last
component, unless that dot starts the component or nothing follows it. -/
def nameExtension? (name : String) : Option String :=
  let component := ((name.splitOn "/").getLast?).getD ""
  match (Path.splitExtension component).2 with
  | some extension => if extension = "" then none else some extension
  | none => none

namespace World

/-- The first of highest priority. -/
def foremost (world : World) : List AdapterId → Option AdapterId
  | [] => none
  | first :: rest =>
      some (rest.foldl
        (fun best candidate =>
          if (world.profile candidate).priority ≤ (world.profile best).priority then best
          else candidate)
        first)

/-- The adapter that the current context used last, unless it was released. -/
def lastUsed (world : World) : Option AdapterId :=
  world.current.bind fun id =>
    let context := world.contexts.get id
    if context.released then none else context.lastAdapter

/-- One among several adapters. -/
def preferred (world : World) (candidates : List AdapterId) : Option AdapterId :=
  match world.lastUsed with
  | some last =>
      if 1 < candidates.length && candidates.contains last then some last
      else world.foremost candidates
  | none => world.foremost candidates

/-- The adapter for a tag. -/
def adapterForTag (world : World) (registry : RegistryId) (tag : String) : Option AdapterId :=
  ((world.indexes.get registry).byTag.get? tag).bind world.preferred

/-- The adapter for the extension of a name, or else for the extension given. -/
def adapterForExtension (world : World) (registry : RegistryId) (name : String)
    (otherwise : Option String) : Option AdapterId :=
  ((nameExtension? name).or otherwise).bind fun extension =>
    ((world.indexes.get registry).byExtension.get? extension).bind world.preferred

/-- Make an adapter that is in no registry. -/
def addAdapter (world : World) (adapter : Adapter) : AdapterId × World :=
  ((world.adapters.add { adapter }).1,
    { world with toLanguages := world.toLanguages.withAdapter adapter })

/-- Make an empty registry. -/
def addRegistry (world : World) : RegistryId × World :=
  ((world.registries.add []).1, { world with toLanguages := world.toLanguages.withRegistry })

/-! ## Look-ups -/

/-- A name under which an index has nothing has no preferred adapter. -/
theorem bind_preferred (world : World) (found : Option (List AdapterId)) :
    found.bind world.preferred = world.preferred (found.getD []) := by
  cases found with
  | none =>
      rw [Option.bind_none, Option.getD_none, preferred]
      cases world.lastUsed <;> rfl
  | some candidates => rfl

/-- Look-ups go by what the adapters of the registry declare. -/
theorem adapterForTag_eq (world : World) (registry : RegistryId) (tag : String) :
    world.adapterForTag registry tag =
      world.preferred (world.declaring registry AdapterProfile.tags tag) := by
  rw [adapterForTag, bind_preferred]
  exact congrArg world.preferred ((world.indexed.holds registry).byTag tag)

theorem adapterForExtension_eq (world : World) (registry : RegistryId) (name : String)
    (otherwise : Option String) : world.adapterForExtension registry name otherwise =
      ((nameExtension? name).or otherwise).bind fun extension =>
        world.preferred (world.declaring registry AdapterProfile.extensions extension) := by
  rw [adapterForExtension]
  congr 1
  funext extension
  rw [bind_preferred]
  exact congrArg world.preferred ((world.indexed.holds registry).byExtension extension)

end World

/-- Put an adapter into a registry.  It can be in one registry only, and once. -/
def register (registry : RegistryId) (id : AdapterId) : HostM LanguageError Unit := do
  let world ← get
  let entry := world.adapters.get id
  if entry.claimed then throw (.alreadyRegistered entry.adapter.profile.name)
  set { world with toLanguages := world.toLanguages.enrol registry id }

end DocumentHost
