import DocumentHost.Proofs.Descriptor.Fetching
import DocumentHost.Proofs.Descriptor.Sources
import DocumentHost.Proofs.Descriptor.Verdict
import DocumentHost.Proofs.Host.Aside
import DocumentHost.Proofs.NameTable

/-!
# A source that tends its descriptors

Every descriptor that is not marked is the one that the source keeps under its name.  In the
middle of an operation there may be exceptions: a descriptor that has just been made, or one
that is about to be replaced.
-/

namespace DocumentHost

namespace World

/-- The descriptors that the source keeps, under their names. -/
def documentEntries (world : World) : List (String × DescriptorId) :=
  world.source.elim [] fun source => source.documents.entries

theorem kept?_eq (world : World) (name : String) :
    world.kept? name = NameTable.findEntry name world.documentEntries := by
  unfold kept? documentEntries
  cases world.source <;> rfl

theorem kept?_of_source {world after : World} (same : after.source = world.source)
    (name : String) : after.kept? name = world.kept? name := by
  rw [kept?, kept?, same]

theorem documentEntries_of_source {world after : World} (same : after.source = world.source) :
    after.documentEntries = world.documentEntries := by
  rw [documentEntries, documentEntries, same]

theorem mem_documentEntries_of_kept {world : World} {name : String} {id : DescriptorId}
    (kept : world.kept? name = some id) : (name, id) ∈ world.documentEntries := by
  rw [kept?_eq] at kept
  exact NameTable.mem_of_findEntry kept

/-- The source keeps descriptors that are held, under their names, and it keeps all that are
not marked, those in a list excepted. -/
structure Tended (loose : List DescriptorId) (world : World) : Prop where
  sourced : world.source.isSome = true
  spread : world.Spread
  known : ∀ name id, (name, id) ∈ world.documentEntries → id.index < world.descriptors.size
  held : ∀ name id, (name, id) ∈ world.documentEntries →
    (world.descriptors.get id).dropped = false
  named : ∀ name id, (name, id) ∈ world.documentEntries → (world.descriptors.get id).name = name
  kept : ∀ id, id.index < world.descriptors.size →
    (world.descriptors.get id).invalidated = false →
      world.kept? (world.descriptors.get id).name = some id ∨ id ∈ loose

/-- What descriptors are later on: names and filled slots stay, and slots are filled only of
descriptors with certain names. -/
structure Continues (filled : String → Prop) (world after : World) : Prop where
  progress : Descriptors.Progress world.descriptors after.descriptors
  names : ∀ id, id.index < world.descriptors.size →
    (after.descriptors.get id).name = (world.descriptors.get id).name
  slots : ∀ id key executable, (world.descriptors.get id).slots.get? key = some executable →
    (after.descriptors.get id).slots.get? key = some executable
  others : ∀ id, id.index < world.descriptors.size → ¬filled (world.descriptors.get id).name →
    (after.descriptors.get id).slots = (world.descriptors.get id).slots

namespace Continues

variable {filled : String → Prop} {world between after : World}

theorem refl (world : World) : Continues filled world world :=
  ⟨.refl _, fun _ _ => rfl, fun _ _ _ slot => slot, fun _ _ _ => rfl⟩

theorem trans (first : Continues filled world between) (second : Continues filled between after) :
    Continues filled world after where
  progress := first.progress.trans second.progress
  names id known := by
    rw [second.names id (Nat.lt_of_lt_of_le known first.progress.size), first.names id known]
  slots id key executable slot := second.slots id key executable (first.slots id key executable slot)
  others id known spared := by
    rw [second.others id (Nat.lt_of_lt_of_le known first.progress.size), first.others id known spared]
    rwa [first.names id known]

theorem mono {more : String → Prop} (continues : Continues filled world after)
    (includes : ∀ name, filled name → more name) : Continues more world after :=
  { continues with others := fun id known spared =>
      continues.others id known fun isFilled => spared (includes _ isFilled) }

end Continues

/-- The source is tended in a later state. -/
structure Tends (filled : String → Prop) (world : World) (loose : List DescriptorId)
    (after : World) : Prop where
  tended : Tended loose after
  continues : Continues filled world after

variable {filled : String → Prop} {world between after : World} {loose : List DescriptorId}

theorem Tends.trans {looseBetween : List DescriptorId}
    (first : Tends filled world looseBetween between)
    (second : Tends filled between loose after) : Tends filled world loose after :=
  ⟨second.tended, first.continues.trans second.continues⟩

theorem size_fillSlot (world : World) (id : DescriptorId) (key : String)
    (executable : ExecutableId) :
    (world.fillSlot id key executable).2.descriptors.size = world.descriptors.size := by
  unfold World.fillSlot
  split
  · rfl
  · exact Arena.size_modify ..

theorem source_fillSlot (world : World) (id : DescriptorId) (key : String)
    (executable : ExecutableId) : (world.fillSlot id key executable).2.source = world.source := by
  unfold World.fillSlot
  split <;> rfl

/-- What is filled stays, and nothing but slots of one descriptor changes. -/
theorem get_fillSlot (world : World) (id : DescriptorId) (key : String)
    (executable : ExecutableId) (other : DescriptorId) :
    ∃ slots, (world.fillSlot id key executable).2.descriptors.get other =
        { world.descriptors.get other with slots } ∧
      (other ≠ id → slots = (world.descriptors.get other).slots) ∧
      ∀ otherKey present, (world.descriptors.get other).slots.get? otherKey = some present →
        slots.get? otherKey = some present := by
  have unchanged : ∃ slots, world.descriptors.get other =
        { world.descriptors.get other with slots } ∧
      (other ≠ id → slots = (world.descriptors.get other).slots) ∧
      ∀ otherKey present, (world.descriptors.get other).slots.get? otherKey = some present →
        slots.get? otherKey = some present :=
    ⟨_, rfl, fun _ => rfl, fun _ _ slot => slot⟩
  rw [World.fillSlot]
  split
  · exact unchanged
  · rename_i empty
    rw [World.modifyDescriptor, Arena.get_modify]
    split
    · rename_i here
      obtain ⟨rfl, -⟩ := here
      refine ⟨_, rfl, fun differs => absurd rfl differs, fun otherKey present slot => ?_⟩
      rw [NameTable.get?_insert_of_ne]
      · exact slot
      · rintro rfl
        rw [empty] at slot
        cases slot
    · exact unchanged

/-- Links change marks and links only. -/
theorem get_linkDependent (world : World) (id dependent : DescriptorId) :
    (world.linkDependent id dependent).source = world.source ∧
      (world.linkDependent id dependent).descriptors.size = world.descriptors.size ∧
      ∀ other, ∃ invalidated dependents,
        (world.linkDependent id dependent).descriptors.get other =
          { world.descriptors.get other with invalidated, dependents } := by
  have linked (other : DescriptorId) : ∃ dependents,
      (world.descriptors.modify id fun descriptor =>
        { descriptor with dependents := descriptor.dependents ++ [dependent] }).get other =
          { world.descriptors.get other with dependents } :=
    Arena.related_modify (fun before after => ∃ dependents, after = { before with dependents })
      (fun _ => ⟨_, rfl⟩) world.descriptors id ⟨_, rfl⟩ other
  rw [World.linkDependent]
  split
  · refine ⟨rfl, (Descriptors.size_invalidateAll ..).trans (Arena.size_modify ..), fun other => ?_⟩
    obtain ⟨_, before⟩ := linked other
    obtain ⟨invalidated, dependents, after⟩ := Descriptors.get_invalidateAll [dependent]
      (world.descriptors.modify id fun descriptor =>
        { descriptor with dependents := descriptor.dependents ++ [dependent] }) other
    rw [before] at after
    exact ⟨invalidated, dependents, after⟩
  · refine ⟨rfl, Arena.size_modify .., fun other => ?_⟩
    obtain ⟨dependents, after⟩ := linked other
    exact ⟨_, dependents, after⟩

/-- A new dependency changes nothing but the list of dependencies. -/
theorem get_linkDependency (world : World) (id dependency other : DescriptorId) :
    ∃ dependencies, (world.linkDependency id dependency).descriptors.get other =
      { world.descriptors.get other with dependencies } := by
  rw [World.linkDependency, World.modifyDescriptor, Arena.get_modify]
  split
  · rename_i here
    rw [here.1]
    split
    · exact ⟨_, rfl⟩
    · exact ⟨_, rfl⟩
  · exact ⟨_, rfl⟩

namespace Tended

theorem refl (tended : Tended loose world) : Tends filled world loose world :=
  ⟨tended, .refl world⟩

/-! ## Changes of descriptors -/

/-- A change of descriptors only, that makes none and lets go of none that is kept. -/
theorem of_progress (tended : Tended loose world)
    (source : after.source = world.source)
    (spread : after.Spread)
    (progress : Descriptors.Progress world.descriptors after.descriptors)
    (size : after.descriptors.size = world.descriptors.size)
    (names : ∀ id, (after.descriptors.get id).name = (world.descriptors.get id).name)
    (held : ∀ name id, (name, id) ∈ world.documentEntries →
      (after.descriptors.get id).dropped = false)
    (slots : ∀ id key executable,
      (world.descriptors.get id).slots.get? key = some executable →
        (after.descriptors.get id).slots.get? key = some executable)
    (others : ∀ id, ¬filled (world.descriptors.get id).name →
      (after.descriptors.get id).slots = (world.descriptors.get id).slots) :
    Tends filled world loose after := by
  have entries := documentEntries_of_source source
  have kept := kept?_of_source source
  refine ⟨⟨?_, spread, ?_, ?_, ?_, ?_⟩, ⟨progress, fun id _ => names id, slots, fun id _ => others id⟩⟩
  · rw [source, tended.sourced]
  · intro name id member
    rw [entries] at member
    rw [size]
    exact tended.known name id member
  · intro name id member
    rw [entries] at member
    exact held name id member
  · intro name id member
    rw [entries] at member
    rw [names, tended.named name id member]
  · intro id known unmarked
    rw [names, kept]
    exact tended.kept id (by rwa [← size]) (progress.unmarked unmarked)

/-- What has to do with neither descriptors nor the source makes no difference. -/
theorem of_same (tended : Tended loose world)
    (descriptors : after.descriptors = world.descriptors)
    (source : after.source = world.source) : Tends filled world loose after := by
  refine tended.of_progress source ?_ ?_ ?_ ?_ ?_ ?_ ?_
  · rw [Spread, descriptors]
    exact tended.spread
  · rw [descriptors]
    exact .refl _
  · rw [descriptors]
  · intro id
    rw [descriptors]
  · intro name id member
    rw [descriptors]
    exact tended.held name id member
  · intro id key executable slot
    rwa [descriptors]
  · intro id _
    rw [descriptors]

theorem aside (tended : Tended loose world) (aside : Aside world after) :
    Tends filled world loose after :=
  tended.of_same aside.descriptors aside.source

theorem checked (tended : Tended loose world) (checked : Checked world after) :
    Tends filled world loose after := by
  obtain ⟨spread, progress⟩ := checked.later tended.spread
  refine tended.of_progress checked.source spread progress checked.size ?_ ?_ ?_ ?_
  · intro id
    obtain ⟨_, _, _, same⟩ := checked.same id
    rw [same]
  · intro name id member
    rw [checked.dropped, tended.held name id member]
  · intro id key executable slot
    obtain ⟨_, _, _, same⟩ := checked.same id
    rwa [same]
  · intro id _
    obtain ⟨_, _, _, same⟩ := checked.same id
    rw [same]

/-- A slot is filled of a descriptor with such a name. -/
theorem fillSlot (tended : Tended loose world) {id : DescriptorId} (key : String)
    (executable : ExecutableId) (named : filled (world.descriptors.get id).name) :
    Tends filled world loose (world.fillSlot id key executable).2 := by
  obtain ⟨spread, progress⟩ := Later.documenting.fill world id key executable tended.spread
  refine tended.of_progress (source_fillSlot ..) spread progress (size_fillSlot ..) ?_ ?_ ?_ ?_
  · intro other
    obtain ⟨_, changed, -⟩ := get_fillSlot world id key executable other
    rw [changed]
  · intro name other member
    obtain ⟨_, changed, -⟩ := get_fillSlot world id key executable other
    rw [changed]
    exact tended.held name other member
  · intro other otherKey present found
    obtain ⟨_, changed, -, stays⟩ := get_fillSlot world id key executable other
    rw [changed]
    exact stays otherKey present found
  · intro other spared
    obtain ⟨_, changed, elsewhere, -⟩ := get_fillSlot world id key executable other
    rw [changed]
    apply elsewhere
    rintro rfl
    exact spared named

theorem linkDependency (tended : Tended loose world) (id dependency : DescriptorId) :
    Tends filled world loose (world.linkDependency id dependency) := by
  have links (descriptor : Descriptor) : ∃ dependencies,
      (if dependency ∈ descriptor.dependencies then descriptor
        else { descriptor with dependencies := descriptor.dependencies ++ [dependency] }) =
      { descriptor with dependencies } := by
    split
    · exact ⟨_, rfl⟩
    · exact ⟨_, rfl⟩
  have same := get_linkDependency world id dependency
  have later : Later world (world.linkDependency id dependency) := by
    refine .modifyDescriptor world id ?_ ?_ ?_
    all_goals
      intro descriptor
      obtain ⟨_, linked⟩ := links descriptor
      rw [linked]
    exact fun dropped => dropped
  obtain ⟨spread, progress⟩ := later tended.spread
  refine tended.of_progress rfl spread progress (Arena.size_modify ..) ?_ ?_ ?_ ?_
  · intro other
    obtain ⟨_, changed⟩ := same other
    rw [changed]
  · intro name other member
    obtain ⟨_, changed⟩ := same other
    rw [changed]
    exact tended.held name other member
  · intro other otherKey present found
    obtain ⟨_, changed⟩ := same other
    rwa [changed]
  · intro other _
    obtain ⟨_, changed⟩ := same other
    rw [changed]

/-- A link from an identity of no descriptor changes nothing. -/
theorem linkDependent (tended : Tended loose world) (id : DescriptorId)
    {dependent : DescriptorId} (dependentKnown : dependent.index < world.descriptors.size) :
    Tends filled world loose (world.linkDependent id dependent) := by
  by_cases known : id.index < world.descriptors.size
  · obtain ⟨spread, progress, -⟩ := Later.linkDependent tended.spread known dependentKnown
    obtain ⟨source, size, same⟩ := get_linkDependent world id dependent
    refine tended.of_progress source spread progress size ?_ ?_ ?_ ?_
    · intro other
      obtain ⟨_, _, changed⟩ := same other
      rw [changed]
    · intro name other member
      obtain ⟨_, _, changed⟩ := same other
      rw [changed]
      exact tended.held name other member
    · intro other otherKey present found
      obtain ⟨_, _, changed⟩ := same other
      rwa [changed]
    · intro other _
      obtain ⟨_, _, changed⟩ := same other
      rw [changed]
  · have same : world.linkDependent id dependent = world := by
      have unchanged : (world.modifyDescriptor id fun descriptor =>
          { descriptor with dependents := descriptor.dependents ++ [dependent] }) = world := by
        rw [World.modifyDescriptor, Arena.modify_of_unknown _ _ known]
      rw [World.linkDependent, unchanged, Arena.get_of_unknown _ known]
      rfl
    rw [same]
    exact tended.refl

/-- A descriptor that the source does not keep may be dropped. -/
theorem drop (tended : Tended loose world) {id : DescriptorId}
    (unkept : ∀ name, (name, id) ∉ world.documentEntries) :
    Tends filled world loose (world.modifyDescriptor id fun descriptor =>
      { descriptor with dropped := true }) := by
  have later : Later world (world.modifyDescriptor id fun descriptor =>
      { descriptor with dropped := true }) :=
    .modifyDescriptor world id (fun _ => rfl) (fun _ => rfl) fun _ _ => rfl
  obtain ⟨spread, progress⟩ := later tended.spread
  have same (other : DescriptorId) : ∃ dropped,
      (world.modifyDescriptor id fun descriptor =>
        { descriptor with dropped := true }).descriptors.get other =
          { world.descriptors.get other with dropped } ∧
        (other ≠ id → dropped = (world.descriptors.get other).dropped) := by
    rw [World.modifyDescriptor, Arena.get_modify]
    split
    · rename_i here
      exact ⟨true, by rw [here.1], fun differs => absurd here.1 differs⟩
    · exact ⟨_, rfl, fun _ => rfl⟩
  refine tended.of_progress rfl spread progress (Arena.size_modify ..) ?_ ?_ ?_ ?_
  · intro other
    obtain ⟨_, changed, -⟩ := same other
    rw [changed]
  · intro name other member
    obtain ⟨_, changed, elsewhere⟩ := same other
    rw [changed]
    refine (elsewhere ?_).trans (tended.held name other member)
    rintro rfl
    exact unkept name member
  · intro other otherKey present found
    obtain ⟨_, changed, -⟩ := same other
    rwa [changed]
  · intro other _
    obtain ⟨_, changed, -⟩ := same other
    rw [changed]

/-- By induction on the descriptors that are dropped, one after the other. -/
theorem dropAll (tended : Tended loose world) (ids : List DescriptorId)
    (unkept : ∀ id ∈ ids, ∀ name, (name, id) ∉ world.documentEntries) :
    Tends filled world loose (ids.foldl (fun marked id => marked.modifyDescriptor id
      fun descriptor => { descriptor with dropped := true }) world) := by
  induction ids generalizing world with
  | nil => exact tended.refl
  | cons id rest ih =>
      have first : Tends filled world loose (world.modifyDescriptor id fun descriptor =>
          { descriptor with dropped := true }) := tended.drop (unkept id (by simp))
      exact first.trans (ih first.tended fun other member => unkept other (by simp [member]))

/-- What is let go of is not kept by the source. -/
theorem reclaim (tended : Tended loose world) : Tends filled world loose world.reclaim := by
  have unkept (id : DescriptorId)
      (member : id ∈ world.descriptors.ids.filter fun id => !world.heldDescriptors.contains id)
      (name : String) : (name, id) ∉ world.documentEntries := by
    intro kept
    have unheld : id ∉ world.heldDescriptors := by simpa using (List.mem_filter.1 member).2
    apply unheld
    rw [heldDescriptors, List.mem_append]
    refine .inr ?_
    unfold documentEntries at kept
    cases source : world.source with
    | none =>
        rw [source] at kept
        cases kept
    | some present =>
        rw [source] at kept
        exact List.mem_map.2 ⟨(name, id), kept, rfl⟩
  have dropped : Tends filled world loose _ := tended.dropAll _ unkept
  exact dropped.trans (dropped.tended.aside (.releaseUnheld _))

/-! ## Changes of what is kept -/

/-- A new descriptor is not kept yet. -/
theorem addDescriptor (tended : Tended loose world) {name : String} {descriptor : Descriptor}
    (fresh : descriptor.Fresh name) :
    Tends filled world ((world.addDescriptor descriptor).1 :: loose)
      (world.addDescriptor descriptor).2 := by
  obtain ⟨spread, progress⟩ := Later.addDescriptor world fresh.dependents tended.spread
  have before (id : DescriptorId) (known : id.index < world.descriptors.size) :
      (world.addDescriptor descriptor).2.descriptors.get id = world.descriptors.get id :=
    Arena.get_add_of_lt _ _ known
  refine ⟨⟨tended.sourced, spread, ?_, ?_, ?_, ?_⟩, ⟨progress, ?_, ?_, ?_⟩⟩
  · intro otherName id member
    exact Nat.lt_of_lt_of_le (tended.known otherName id member) progress.size
  · intro otherName id member
    rw [before id (tended.known otherName id member)]
    exact tended.held otherName id member
  · intro otherName id member
    rw [before id (tended.known otherName id member)]
    exact tended.named otherName id member
  · intro id known unmarked
    by_cases old : id.index < world.descriptors.size
    · rw [before id old] at unmarked ⊢
      exact (tended.kept id old unmarked).imp_right (List.mem_cons_of_mem _)
    · have isNew : id = (world.addDescriptor descriptor).1 := Arena.eq_fst_add_of_new old known
      rw [isNew]
      exact .inr List.mem_cons_self
  · intro id known
    rw [before id known]
  · intro id key executable slot
    by_cases old : id.index < world.descriptors.size
    · rwa [before id old]
    · rw [Arena.get_of_unknown _ old] at slot
      cases slot
  · intro id known _
    rw [before id known]

/-- A descriptor is no exception any longer once it is kept or marked. -/
theorem tie (tended : Tended loose world) {looseAfter : List DescriptorId}
    (tied : ∀ id ∈ loose, id.index < world.descriptors.size →
      (world.descriptors.get id).invalidated = false →
        world.kept? (world.descriptors.get id).name = some id ∨ id ∈ looseAfter) :
    Tended looseAfter world :=
  { tended with kept := fun id known unmarked =>
      (tended.kept id known unmarked).elim .inl fun isLoose => tied id isLoose known unmarked }

/-- Every descriptor that the source keeps under a name is marked. -/
def Vacant (name : String) (world : World) : Prop :=
  ∀ id, (name, id) ∈ world.documentEntries → (world.descriptors.get id).invalidated = true

/-- Where no descriptor is found under a name, or a marked one, all under the name are
marked. -/
theorem vacant (tended : Tended [] world) {name : String}
    (marked : ∀ id, world.kept? name = some id →
      (world.descriptors.get id).invalidated = true) : Vacant name world := by
  intro id member
  cases unmarked : (world.descriptors.get id).invalidated with
  | true => rfl
  | false =>
      have kept := (tended.kept id (tended.known name id member) unmarked).resolve_right nofun
      rw [tended.named name id member] at kept
      rw [marked id kept] at unmarked
      cases unmarked

theorem Vacant.later {name : String} (vacant : Vacant name world)
    (progress : Descriptors.Progress world.descriptors after.descriptors)
    (entries : ∀ entry ∈ after.documentEntries, entry ∈ world.documentEntries) :
    Vacant name after :=
  fun id member => progress.marked id (vacant id (entries _ member))

/-- A change of what is kept: nothing is added but descriptors that may be, and of those that
are not marked none is lost, exceptions apart. -/
theorem of_documents (tended : Tended loose world) {looseAfter : List DescriptorId}
    {change : NameTable DescriptorId → NameTable DescriptorId}
    (entries : ∀ name id, (name, id) ∈ (world.modifyDocuments change).documentEntries →
      (name, id) ∈ world.documentEntries ∨ id.index < world.descriptors.size ∧
        (world.descriptors.get id).dropped = false ∧ (world.descriptors.get id).name = name)
    (kept : ∀ id, id.index < world.descriptors.size →
      (world.descriptors.get id).invalidated = false →
        world.kept? (world.descriptors.get id).name = some id ∨ id ∈ loose →
          (world.modifyDocuments change).kept? (world.descriptors.get id).name = some id ∨
            id ∈ looseAfter) :
    Tends filled world looseAfter (world.modifyDocuments change) := by
  refine ⟨⟨?_, tended.spread, ?_, ?_, ?_, ?_⟩, ⟨.refl _, fun _ _ => rfl, fun _ _ _ slot => slot,
    fun _ _ _ => rfl⟩⟩
  · have sourced := tended.sourced
    rw [World.modifyDocuments, Option.isSome_map]
    exact sourced
  · intro name id member
    rcases entries name id member with old | ⟨known, -, -⟩
    · exact tended.known name id old
    · exact known
  · intro name id member
    rcases entries name id member with old | ⟨-, held, -⟩
    · exact tended.held name id old
    · exact held
  · intro name id member
    rcases entries name id member with old | ⟨-, -, named⟩
    · exact tended.named name id old
    · exact named
  · intro id known unmarked
    exact kept id known unmarked (tended.kept id known unmarked)

/-- The source of a state, and what becomes of its documents. -/
theorem exists_source (tended : Tended loose world) :
    ∃ source, world.source = some source ∧ world.documentEntries = source.documents.entries ∧
      ∀ change, (world.modifyDocuments change).documentEntries =
        (change source.documents).entries := by
  obtain ⟨source, found⟩ := Option.isSome_iff_exists.1 tended.sourced
  refine ⟨source, found, ?_, fun change => ?_⟩
  · rw [documentEntries, found]
    rfl
  · rw [documentEntries, World.modifyDocuments, found]
    rfl

/-- A descriptor is kept in place of the one that was kept under its name. -/
theorem insert (tended : Tended loose world) {name : String} {id : DescriptorId}
    {looseAfter : List DescriptorId} (known : id.index < world.descriptors.size)
    (held : (world.descriptors.get id).dropped = false)
    (named : (world.descriptors.get id).name = name)
    (replaced : ∀ old, world.kept? name = some old →
      (world.descriptors.get old).invalidated = true ∨ old ∈ looseAfter)
    (rest : ∀ other ∈ loose, other = id ∨ other ∈ looseAfter) :
    Tends filled world looseAfter
        (world.modifyDocuments fun documents => documents.insert name id) ∧
      (world.modifyDocuments fun documents => documents.insert name id).kept? name = some id := by
  obtain ⟨source, found, entriesBefore, entriesAfter⟩ := tended.exists_source
  have keptAfter (other : String) :
      (world.modifyDocuments fun documents => documents.insert name id).kept? other =
        if other = name then some id else world.kept? other := by
    rw [kept?_eq, kept?_eq, entriesAfter, entriesBefore]
    exact NameTable.findEntry_insertEntry name other id source.documents.entries
  refine ⟨tended.of_documents ?_ ?_, by rw [keptAfter, if_pos rfl]⟩
  · intro otherName other member
    rw [entriesAfter] at member
    rcases NameTable.eq_or_mem_of_mem_insertEntry member with ⟨rfl, rfl⟩ | old
    · exact .inr ⟨known, held, named⟩
    · exact .inl (by rwa [entriesBefore])
  · intro other otherKnown unmarked before
    rw [keptAfter]
    by_cases isId : other = id
    · rw [isId, named, if_pos rfl]
      exact .inl rfl
    rcases before with kept | isLoose
    · by_cases sameName : (world.descriptors.get other).name = name
      · rw [sameName] at kept
        refine .inr ((replaced other kept).resolve_left ?_)
        rw [unmarked]
        exact Bool.false_ne_true
      · rw [if_neg sameName]
        exact .inl kept
    · exact .inr ((rest other isLoose).resolve_left isId)

theorem mem_of_mem_sweep (tended : Tended loose world) {entry : String × DescriptorId}
    (member : entry ∈ world.sweep.documentEntries) : entry ∈ world.documentEntries := by
  obtain ⟨source, found, entriesBefore, entriesAfter⟩ := tended.exists_source
  have released := (Aside.releaseUnheld (world.modifyDocuments fun documents =>
    documents.retain fun id => !(world.descriptors.get id).invalidated)).source
  rw [World.sweep, documentEntries_of_source released, entriesAfter] at member
  rw [entriesBefore]
  exact (List.mem_filter.1 member).1

/-- Marked descriptors need not be kept. -/
theorem sweep (tended : Tended loose world) : Tends filled world loose world.sweep := by
  obtain ⟨source, found, entriesBefore, entriesAfter⟩ := tended.exists_source
  have retains : Tends filled world loose (world.modifyDocuments fun documents =>
      documents.retain fun id => !(world.descriptors.get id).invalidated) := by
    refine tended.of_documents (fun name id member => .inl ?_) ?_
    · rw [entriesAfter] at member
      rw [entriesBefore]
      exact (List.mem_filter.1 member).1
    intro id _ unmarked before
    refine before.imp_left fun kept => ?_
    rw [kept?_eq, entriesBefore] at kept
    rw [kept?_eq, entriesAfter]
    exact NameTable.findEntry_filter_of_keep
      (fun id => !(world.descriptors.get id).invalidated) kept (by simp [unmarked])
  exact retains.trans (retains.tended.aside (.releaseUnheld _))

/-- A name under which only marked descriptors are kept can be forgotten. -/
theorem forget (tended : Tended loose world) {name : String} (vacant : Vacant name world) :
    Tends filled world loose (world.forget name) := by
  obtain ⟨source, found, entriesBefore, entriesAfter⟩ := tended.exists_source
  have erases : Tends filled world loose
      (world.modifyDocuments fun documents => documents.erase name) := by
    refine tended.of_documents ?_ ?_
    · intro otherName id member
      rw [entriesAfter] at member
      rw [entriesBefore]
      exact .inl (List.mem_filter.1 member).1
    · intro id _ unmarked before
      refine before.imp_left fun kept => ?_
      have differs : (world.descriptors.get id).name ≠ name := by
        intro same
        rw [same] at kept
        rw [vacant id (mem_documentEntries_of_kept kept)] at unmarked
        cases unmarked
      rw [kept?_eq, entriesBefore] at kept
      rw [kept?_eq, entriesAfter]
      exact (NameTable.get?_erase_of_ne source.documents differs).trans kept
  exact erases.trans (erases.tended.aside (.releaseUnheld _))

end Tended

end World

end DocumentHost
