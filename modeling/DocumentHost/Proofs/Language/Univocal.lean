import DocumentHost.Host.Execute
import DocumentHost.Mini.Language
import DocumentHost.Proofs.Host.Lockstep

/-!
# Registries without ambiguity

In a registry where no tag and no filename extension is shared, the adapter that ran last
plays no role: a name is answered by the one adapter that declares it.  So the answers of
such a registry depend on its adapters alone.
-/

namespace DocumentHost

/-- No two adapters of a registry share a tag or an extension. -/
structure World.Univocal (world : World) (registry : RegistryId) : Prop where
  tags : ∀ first ∈ world.registries.get registry, ∀ second ∈ world.registries.get registry,
    ∀ tag ∈ (world.profile first).tags, tag ∈ (world.profile second).tags → first = second
  extensions : ∀ first ∈ world.registries.get registry,
    ∀ second ∈ world.registries.get registry, ∀ extension ∈ (world.profile first).extensions,
    extension ∈ (world.profile second).extensions → first = second

/-- All adapters of a registry are Mini adapters. -/
def World.MiniRegistry (world : World) (registry : RegistryId) : Prop :=
  ∀ id ∈ world.registries.get registry,
    ∃ profile, (world.adapters.get id).adapter = Mini.adapter profile

/-- A host that speaks Mini only: its registries are unambiguous and have Mini adapters
only, and all compiled documents consist of their programs. -/
structure World.SpeaksMini (world : World) : Prop where
  univocal : ∀ registry, world.Univocal registry
  mini : ∀ registry, world.MiniRegistry registry
  compiled : ∀ executable ∈ world.executables.items, SpeakMini executable.segments

namespace World

variable {world other : World} {registry : RegistryId}

theorem mem_declaring {declared : AdapterProfile → List String} {wanted : String}
    {id : AdapterId} (member : id ∈ world.declaring registry declared wanted) :
    id ∈ world.registries.get registry ∧ wanted ∈ declared (world.profile id) := by
  obtain ⟨candidate, inRegistry, found⟩ := List.mem_flatMap.1 member
  obtain ⟨name, isDeclared, rfl⟩ := List.mem_map.1 found
  rw [List.mem_filter, decide_eq_true_eq] at isDeclared
  exact ⟨inRegistry, isDeclared.2 ▸ isDeclared.1⟩

/-- The adapter that is preferred is a candidate. -/
theorem mem_of_preferred {candidates : List AdapterId} {id : AdapterId}
    (found : world.preferred candidates = some id) : id ∈ candidates := by
  have foremostMember (chosen : world.foremost candidates = some id) : id ∈ candidates := by
    cases candidates with
    | nil => cases chosen
    | cons first rest =>
        rw [foremost, Option.some.injEq] at chosen
        subst chosen
        clear found
        induction rest generalizing first with
        | nil => exact List.mem_singleton.2 rfl
        | cons second rest ih =>
            rw [List.foldl_cons]
            split
            · exact List.mem_cons.2 ((List.mem_cons.1 (ih first)).imp_right (List.mem_cons_of_mem _))
            · exact List.mem_cons_of_mem _ (ih second)
  rw [preferred] at found
  split at found
  · split at found
    · rename_i last _ contained
      cases found
      simp only [Bool.and_eq_true, List.contains_iff_mem] at contained
      exact contained.2
    · exact foremostMember found
  · exact foremostMember found

theorem mem_declaring_of_adapterForTag {tag : String} {id : AdapterId}
    (found : world.adapterForTag registry tag = some id) :
    id ∈ world.declaring registry AdapterProfile.tags tag := by
  rw [adapterForTag_eq] at found
  exact mem_of_preferred found

theorem foremost_of_all_eq {first : AdapterId} {rest : List AdapterId}
    (same : ∀ id ∈ rest, id = first) : world.foremost (first :: rest) = some first := by
  rw [foremost]
  congr 1
  induction rest with
  | nil => rfl
  | cons second rest ih =>
      obtain rfl := same second (by simp)
      rw [List.foldl_cons, if_pos (Int.le_refl _)]
      exact ih fun id member => same id (by simp [member])

/-- Among candidates that are all the same, that one is preferred. -/
theorem preferred_of_all_eq {candidates : List AdapterId}
    (same : ∀ first ∈ candidates, ∀ second ∈ candidates, first = second) :
    world.preferred candidates = candidates.head? := by
  have foremostIsHead : world.foremost candidates = candidates.head? := by
    cases candidates with
    | nil => rfl
    | cons first rest =>
        exact foremost_of_all_eq fun id member =>
          same id (by simp [member]) first (by simp)
  rw [preferred]
  split
  · rename_i last _
    split
    · rename_i contained
      simp only [Bool.and_eq_true, decide_eq_true_eq, List.contains_iff_mem] at contained
      cases candidates with
      | nil => cases contained.2
      | cons first rest => rw [same last contained.2 first (by simp)]; rfl
    · exact foremostIsHead
  · exact foremostIsHead

/-- The adapter for a tag is the first that declares it. -/
theorem adapterForTag_eq_head? (univocal : world.Univocal registry) (tag : String) :
    world.adapterForTag registry tag =
      (world.declaring registry AdapterProfile.tags tag).head? := by
  rw [adapterForTag_eq]
  apply preferred_of_all_eq
  intro first member second otherMember
  obtain ⟨inRegistry, declares⟩ := mem_declaring member
  obtain ⟨otherInRegistry, otherDeclares⟩ := mem_declaring otherMember
  exact univocal.tags first inRegistry second otherInRegistry tag declares otherDeclares

theorem adapterForExtension_eq_head? (univocal : world.Univocal registry) (name : String)
    (otherwise : Option String) :
    world.adapterForExtension registry name otherwise =
      ((nameExtension? name).or otherwise).bind fun extension =>
        (world.declaring registry AdapterProfile.extensions extension).head? := by
  rw [adapterForExtension_eq]
  congr 1
  funext extension
  apply preferred_of_all_eq
  intro first member second otherMember
  obtain ⟨inRegistry, declares⟩ := mem_declaring member
  obtain ⟨otherInRegistry, otherDeclares⟩ := mem_declaring otherMember
  exact univocal.extensions first inRegistry second otherInRegistry extension declares
    otherDeclares

/-- The adapter for a tag is in the registry. -/
theorem mem_of_adapterForTag {tag : String} {id : AdapterId}
    (found : world.adapterForTag registry tag = some id) :
    id ∈ world.registries.get registry :=
  (mem_declaring (mem_declaring_of_adapterForTag found)).1

end World

/-! ## States with the same adapters -/

/-- Two states have the same adapters and registries. -/
def SameAdapters (world other : World) : Prop :=
  world.adapters = other.adapters ∧ world.registries = other.registries

namespace SameAdapters

variable {world other : World} {registry : RegistryId}

theorem profile (same : SameAdapters world other) : world.profile = other.profile := by
  funext id
  rw [Languages.profile, Languages.profile, same.1]

theorem declaring (same : SameAdapters world other)
    (declared : AdapterProfile → List String) (wanted : String) :
    world.declaring registry declared wanted = other.declaring registry declared wanted := by
  rw [Languages.declaring, Languages.declaring, same.2, same.profile]

theorem univocal (same : SameAdapters world other) (univocal : world.Univocal registry) :
    other.Univocal registry := by
  constructor
  · have tags := univocal.tags
    rw [same.2, same.profile] at tags
    exact tags
  · have extensions := univocal.extensions
    rw [same.2, same.profile] at extensions
    exact extensions

theorem miniRegistry (same : SameAdapters world other) (mini : world.MiniRegistry registry) :
    other.MiniRegistry registry := by
  rw [World.MiniRegistry, same.1, same.2] at mini
  exact mini

theorem adapterForTag (same : SameAdapters world other) (univocal : world.Univocal registry)
    (tag : String) : world.adapterForTag registry tag = other.adapterForTag registry tag := by
  rw [World.adapterForTag_eq_head? univocal, World.adapterForTag_eq_head? (same.univocal univocal),
    same.declaring]

theorem adapterForExtension (same : SameAdapters world other)
    (univocal : world.Univocal registry) (name : String) (otherwise : Option String) :
    world.adapterForExtension registry name otherwise =
      other.adapterForExtension registry name otherwise := by
  rw [World.adapterForExtension_eq_head? univocal,
    World.adapterForExtension_eq_head? (same.univocal univocal)]
  congr 1
  funext extension
  rw [same.declaring]

theorem initialTag (same : SameAdapters world other) {setting : Setting}
    (univocal : world.Univocal setting.registry) (document : Document) :
    world.initialTag setting document = other.initialTag setting document := by
  rw [World.initialTag, World.initialTag, same.adapterForExtension univocal, same.profile]

theorem codeForLiteral (same : SameAdapters world other) {setting : Setting}
    (univocal : world.Univocal setting.registry) :
    world.codeForLiteral setting = other.codeForLiteral setting := by
  funext tag text
  rw [World.codeForLiteral, World.codeForLiteral, same.adapterForTag univocal, same.1]

theorem symm (same : SameAdapters world other) : SameAdapters other world :=
  ⟨same.1.symm, same.2.symm⟩

theorem trans {further : World} (first : SameAdapters world other)
    (second : SameAdapters other further) : SameAdapters world further :=
  ⟨first.1.trans second.1, first.2.trans second.2⟩

end SameAdapters

/-! ## States that still speak Mini -/

theorem World.SpeaksMini.of_eq {world other : World} (speaks : world.SpeaksMini)
    (same : SameAdapters world other) (executables : other.executables = world.executables) :
    other.SpeaksMini where
  univocal registry := same.univocal (speaks.univocal registry)
  mini registry := same.miniRegistry (speaks.mini registry)
  compiled := by
    rw [executables]
    exact speaks.compiled

theorem World.SpeaksMini.addExecutable {world : World} (speaks : world.SpeaksMini)
    {executable : Executable} (speak : SpeakMini executable.segments) :
    World.SpeaksMini { world with executables := (world.executables.add executable).2 } where
  univocal registry := by
    have same : SameAdapters world
        { world with executables := (world.executables.add executable).2 } := ⟨rfl, rfl⟩
    exact same.univocal (speaks.univocal registry)
  mini registry := speaks.mini registry
  compiled := by
    intro added member
    rcases List.mem_append.1 member with earlier | new
    · exact speaks.compiled added earlier
    · obtain rfl := List.mem_singleton.1 new
      exact speak

end DocumentHost
