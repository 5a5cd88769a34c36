import DocumentHost.Arena
import DocumentHost.Language.Adapter
import DocumentHost.NameTable

/-!
# Adapters, registries and their indexes

A registry has its adapters in the order of registration.  Beside them it keeps an index, which
has under each tag and each filename extension the adapters that declare it.  An index is never
built anew: each registration enters one adapter.  So the state of adapters and registries
carries the fact that the indexes hold what the adapters declare.
-/

namespace DocumentHost

/-- Those among some adapters that declare a name, each as often as it does. -/
def declarers (profile : AdapterId → AdapterProfile) (declared : AdapterProfile → List String)
    (members : List AdapterId) (wanted : String) : List AdapterId :=
  members.flatMap fun id => ((declared (profile id)).filter (· = wanted)).map fun _ => id

/-- The adapters of a registry under what they declare. -/
structure Index where
  byTag : NameTable (List AdapterId) := {}
  byExtension : NameTable (List AdapterId) := {}
deriving Inhabited

namespace Index

/-- The adapters under a name. -/
def under (table : NameTable (List AdapterId)) (name : String) : List AdapterId :=
  (table.get? name).getD []

/-- Put an adapter behind the others under each of some names. -/
def enterUnder (id : AdapterId) (names : List String) (table : NameTable (List AdapterId)) :
    NameTable (List AdapterId) :=
  names.foldl (fun table name => table.insert name (under table name ++ [id])) table

/-- Enter an adapter under all that it declares. -/
def enter (index : Index) (id : AdapterId) (profile : AdapterProfile) : Index where
  byTag := enterUnder id profile.tags index.byTag
  byExtension := enterUnder id profile.extensions index.byExtension

/-- The index of adapters that were entered one after the other. -/
def ofMembers (profile : AdapterId → AdapterProfile) (members : List AdapterId) : Index :=
  members.foldl (fun index id => index.enter id (profile id)) {}

/-- An index has under each name those adapters of the registry that declare it, in the order of
registration. -/
structure Holds (index : Index) (profile : AdapterId → AdapterProfile)
    (members : List AdapterId) : Prop where
  byTag : ∀ tag, under index.byTag tag = declarers profile AdapterProfile.tags members tag
  byExtension : ∀ extension, under index.byExtension extension =
    declarers profile AdapterProfile.extensions members extension

section Entering

variable {index : Index} {profile other : AdapterId → AdapterProfile} {members : List AdapterId}

theorem under_enterUnder (id : AdapterId) (names : List String)
    (table : NameTable (List AdapterId)) (wanted : String) :
    under (enterUnder id names table) wanted =
      under table wanted ++ (names.filter (· = wanted)).map fun _ => id := by
  induction names generalizing table with
  | nil => exact (List.append_nil _).symm
  | cons name rest ih =>
      rw [enterUnder, List.foldl_cons, ← enterUnder, ih, under, NameTable.get?_insert]
      by_cases same : wanted = name
      · simp [same]
      · simp [same, Ne.symm same, under]

theorem declarers_concat (profile : AdapterId → AdapterProfile)
    (declared : AdapterProfile → List String) (members : List AdapterId) (id : AdapterId)
    (wanted : String) : declarers profile declared (members ++ [id]) wanted =
      declarers profile declared members wanted ++
        ((declared (profile id)).filter (· = wanted)).map fun _ => id := by
  rw [declarers, List.flatMap_append, List.flatMap_singleton, declarers]

theorem declarers_congr (same : ∀ id ∈ members, other id = profile id)
    (declared : AdapterProfile → List String) (wanted : String) :
    declarers other declared members wanted = declarers profile declared members wanted := by
  rw [declarers, declarers, List.flatMap_def, List.flatMap_def]
  congr 1
  exact List.map_congr_left fun id member => by rw [same id member]

/-- One adapter is entered: the index holds what the registry declares with it. -/
theorem Holds.enter (holds : index.Holds profile members) (id : AdapterId) :
    (index.enter id (profile id)).Holds profile (members ++ [id]) where
  byTag tag := by
    rw [Index.enter, under_enterUnder, holds.byTag, declarers_concat]
  byExtension extension := by
    rw [Index.enter, under_enterUnder, holds.byExtension, declarers_concat]

/-- Profiles of adapters that are not in the registry do not matter. -/
theorem Holds.congr (holds : index.Holds profile members)
    (same : ∀ id ∈ members, other id = profile id) : index.Holds other members where
  byTag tag := by rw [holds.byTag, declarers_congr same]
  byExtension extension := by rw [holds.byExtension, declarers_congr same]

theorem Holds.empty (profile : AdapterId → AdapterProfile) : Holds {} profile [] :=
  ⟨fun _ => rfl, fun _ => rfl⟩

theorem holds_ofMembers (profile : AdapterId → AdapterProfile) (members : List AdapterId) :
    (ofMembers profile members).Holds profile members := by
  have entered (rest : List AdapterId) : ∀ {index : Index} {known : List AdapterId},
      index.Holds profile known →
        (rest.foldl (fun index id => index.enter id (profile id)) index).Holds profile
          (known ++ rest) := by
    induction rest with
    | nil => exact fun holds => (List.append_nil _).symm ▸ holds
    | cons id rest ih =>
        intro index known holds
        rw [List.foldl_cons, List.append_cons]
        exact ih (holds.enter id)
  exact entered members (.empty profile)

end Entering

end Index

/-- An adapter, and whether a registry has it. -/
structure AdapterEntry where
  adapter : Adapter
  claimed : Bool := false
deriving Inhabited

/-- The registries have adapters that are there, and the indexes hold what those declare. -/
structure Indexed (adapters : Arena .adapter AdapterEntry)
    (registries : Arena .registry (List AdapterId)) (indexes : Arena .registry Index) : Prop where
  known : ∀ registry, ∀ id ∈ registries.get registry, id.index < adapters.size
  aligned : indexes.size = registries.size
  holds : ∀ registry, (indexes.get registry).Holds (fun id => (adapters.get id).adapter.profile)
    (registries.get registry)

namespace Indexed

variable {adapters : Arena .adapter AdapterEntry} {registries : Arena .registry (List AdapterId)}
  {indexes : Arena .registry Index}

theorem none : Indexed {} {} {} where
  known _ _ member := by cases member
  aligned := rfl
  holds _ := .empty _

/-- Indexes can be had from the members of the registries. -/
theorem ofMembers (known : ∀ members ∈ registries.items, ∀ id ∈ members, id.index < adapters.size) :
    Indexed adapters registries ⟨registries.items.map
      (Index.ofMembers fun id => (adapters.get id).adapter.profile)⟩ where
  known registry id member := by
    rw [Arena.get, List.getD] at member
    cases found : registries.items[registry.index]? with
    | none =>
        rw [found] at member
        cases member
    | some members =>
        rw [found] at member
        exact known members (List.mem_of_getElem? found) id member
  aligned := List.length_map _
  holds registry := by
    rw [Arena.get, Arena.get, List.getD, List.getD, List.getElem?_map]
    cases registries.items[registry.index]? with
    | none => exact .empty _
    | some members => exact Index.holds_ofMembers _ _

theorem addAdapter (indexed : Indexed adapters registries indexes) (entry : AdapterEntry) :
    Indexed (adapters.add entry).2 registries indexes where
  known registry id member := by
    rw [Arena.size_add]
    exact Nat.lt_succ_of_lt (indexed.known registry id member)
  aligned := indexed.aligned
  holds registry := (indexed.holds registry).congr fun id member => by
    rw [Arena.get_add_of_lt _ _ (indexed.known registry id member)]

theorem addRegistry (indexed : Indexed adapters registries indexes) :
    Indexed adapters (registries.add []).2 (indexes.add {}).2 where
  known registry id member := by
    rw [Arena.get_add] at member
    split at member
    · cases member
    · exact indexed.known registry id member
  aligned := by rw [Arena.size_add, Arena.size_add, indexed.aligned]
  holds registry := by
    have sameId : (indexes.add {}).1 = (registries.add []).1 :=
      congrArg Identity.mk indexed.aligned
    rw [Arena.get_add, Arena.get_add, sameId]
    split
    · exact .empty _
    · exact indexed.holds registry

/-- Adapters keep their profiles when they are claimed. -/
theorem profile_claim (adapters : Arena .adapter AdapterEntry) (id other : AdapterId) :
    ((adapters.modify id fun entry => { entry with claimed := true }).get other).adapter.profile =
      (adapters.get other).adapter.profile := by
  rw [Arena.get_modify]
  split
  · rename_i here
    rw [here.1]
  · rfl

/-- An adapter that is there joins a registry and its index. -/
theorem enrol (indexed : Indexed adapters registries indexes) (registry : RegistryId)
    {id : AdapterId} (known : id.index < adapters.size) :
    Indexed (adapters.modify id fun entry => { entry with claimed := true })
      (registries.modify registry fun members => members ++ [id])
      (indexes.modify registry fun index => index.enter id (adapters.get id).adapter.profile) where
  known other member isMember := by
    rw [Arena.size_modify]
    rw [Arena.get_modify] at isMember
    split at isMember
    · rcases List.mem_append.1 isMember with earlier | last
      · exact indexed.known registry member earlier
      · exact List.mem_singleton.1 last ▸ known
    · exact indexed.known other member isMember
  aligned := by rw [Arena.size_modify, Arena.size_modify, indexed.aligned]
  holds other := by
    have same (member : AdapterId) := profile_claim adapters id member
    rw [Arena.get_modify, Arena.get_modify, indexed.aligned]
    split
    · exact ((indexed.holds registry).enter id).congr fun member _ => same member
    · exact (indexed.holds other).congr fun member _ => same member

end Indexed

/-- The adapters of a host, and the registries that some of them are in. -/
structure Languages where
  adapters : Arena .adapter AdapterEntry := {}
  /-- The adapters of each registry, in the order of registration. -/
  registries : Arena .registry (List AdapterId) := {}
  /-- What each registry looks up. -/
  indexes : Arena .registry Index := {}
  indexed : Indexed adapters registries indexes := by exact .none

namespace Languages

instance : Inhabited Languages := ⟨{}⟩

/-- Adapters, and registries that they have joined. -/
def of (adapters : List AdapterEntry) (registries : List (List AdapterId))
    (known : (registries.all fun members => members.all fun id => id.index < adapters.length) =
      true := by exact Eq.refl true) : Languages where
  adapters := ⟨adapters⟩
  registries := ⟨registries⟩
  indexes := ⟨registries.map
    (Index.ofMembers fun id => (Arena.get ⟨adapters⟩ id).adapter.profile)⟩
  indexed := .ofMembers (by simpa [Arena.size] using known)

/-- The description of an adapter. -/
def profile (languages : Languages) (id : AdapterId) : AdapterProfile :=
  (languages.adapters.get id).adapter.profile

/-- The registered adapters that declare something, each as often as it does. -/
def declaring (languages : Languages) (registry : RegistryId)
    (declared : AdapterProfile → List String) (wanted : String) : List AdapterId :=
  declarers languages.profile declared (languages.registries.get registry) wanted

/-- Make an adapter that is in no registry. -/
def withAdapter (languages : Languages) (adapter : Adapter) : Languages :=
  { languages with
    adapters := (languages.adapters.add { adapter }).2
    indexed := languages.indexed.addAdapter _ }

/-- Make an empty registry. -/
def withRegistry (languages : Languages) : Languages :=
  { languages with
    registries := (languages.registries.add []).2
    indexes := (languages.indexes.add {}).2
    indexed := languages.indexed.addRegistry }

/-- Put an adapter into a registry, and there under all that it declares.  An identity of no
adapter stays out. -/
def enrol (languages : Languages) (registry : RegistryId) (id : AdapterId) : Languages :=
  if known : id.index < languages.adapters.size then
    { adapters := languages.adapters.modify id fun entry => { entry with claimed := true }
      registries := languages.registries.modify registry fun members => members ++ [id]
      indexes := languages.indexes.modify registry fun index =>
        index.enter id (languages.profile id)
      indexed := languages.indexed.enrol registry known }
  else languages

end Languages

end DocumentHost
