import DocumentHost.Proofs.Descriptor.Tended
import DocumentHost.Proofs.Host.Changes

/-!
# Operations that tend a source

Whatever is fetched, put, seeded or planted, the source keeps exactly the descriptors that
are not marked.  Only where a document of a name is seeded is a slot of that name filled.
-/

namespace DocumentHost

open World

/-- A descriptor that a check finds valid is not marked. -/
theorem unmarked_of_isValid {id : DescriptorId} {world after : World}
    (held : (world.descriptors.get id).dropped = false)
    (checked : (isValid id).eval world = (.ok true, after)) :
    (after.descriptors.get id).invalidated = false := by
  rw [eval_isValid] at checked
  have finds := judgeWithin_finds (dependencyLimit + 1) world id [] held
  rcases visited : (judgeWithin (dependencyLimit + 1) id []).eval world with
    ⟨error | ⟨valid, visitedAfter⟩, between⟩
  · rw [visited] at checked
    cases checked
  rw [visited] at checked finds
  cases checked
  have cleared : Cleared world [id] [] after visitedAfter := finds
  rw [cleared.searched.invalidated]
  obtain ⟨now, -, sound⟩ := cleared.sound id (cleared.roots id (by simp)) (by simp)
  exact sound.unmarked

namespace World

/-- A descriptor under a name that has been made and is neither marked nor dropped. -/
structure Newly (name : String) (world : World) (id : DescriptorId) : Prop where
  known : id.index < world.descriptors.size
  held : (world.descriptors.get id).dropped = false
  unmarked : (world.descriptors.get id).invalidated = false
  named : (world.descriptors.get id).name = name

theorem descriptors_sweep (world : World) : world.sweep.descriptors = world.descriptors :=
  descriptors_releaseUnheld _

namespace Newly

variable {name : String} {world : World} {id : DescriptorId}

theorem add (world : World) {descriptor : Descriptor} (fresh : descriptor.Fresh name) :
    Newly name (world.addDescriptor descriptor).2 (world.addDescriptor descriptor).1 := by
  have found : (world.addDescriptor descriptor).2.descriptors.get
      (world.addDescriptor descriptor).1 = descriptor := Arena.get_add_self ..
  refine ⟨Arena.known_add .., ?_, ?_, ?_⟩
  · rw [found, fresh.held]
  · rw [found, fresh.unmarked]
  · rw [found, fresh.name]

theorem of_descriptors {after : World} (newly : Newly name world id)
    (same : after.descriptors = world.descriptors) : Newly name after id := by
  obtain ⟨known, held, unmarked, named⟩ := newly
  rw [← same] at known held unmarked named
  exact ⟨known, held, unmarked, named⟩

theorem fillSlot (newly : Newly name world id) (key : String) (executable : ExecutableId) :
    Newly name (world.fillSlot id key executable).2 id := by
  obtain ⟨_, changed, -⟩ := get_fillSlot world id key executable id
  refine ⟨?_, ?_, ?_, ?_⟩
  · rw [size_fillSlot]
    exact newly.known
  · rw [changed]
    exact newly.held
  · rw [changed]
    exact newly.unmarked
  · rw [changed]
    exact newly.named

end Newly

namespace Tended

variable {filled : String → Prop} {world between : World} {name : String}

/-- A new descriptor is kept under its name. -/
theorem enlist {id : DescriptorId} (tends : Tends filled world [id] between)
    (newly : Newly name between id) (vacant : Vacant name between) :
    Tends filled world []
        (between.modifyDocuments fun documents => documents.insert name id) ∧
      (between.modifyDocuments fun documents => documents.insert name id).kept? name = some id ∧
      Newly name (between.modifyDocuments fun documents => documents.insert name id) id := by
  have inserted : Tends filled between [] _ ∧ _ :=
    tends.tended.insert newly.known newly.held newly.named
      (fun old found => .inl (vacant old (mem_documentEntries_of_kept found)))
      (fun other member => .inl (List.mem_singleton.1 member))
  exact ⟨tends.trans inserted.1, inserted.2, newly.of_descriptors rfl⟩

/-- What is fetched is kept under its name, and it is not marked. -/
def Fetched (name : String) : Except DocumentError DescriptorId × World → Prop
  | (.ok id, after) => after.kept? name = some id ∧ Newly name after id
  | (.error _, _) => True

theorem reload (tended : Tended [] world) (vacant : Vacant name world)
    (kind : Option SourceKind) :
    Tends filled world [] ((reloadDocument kind name).eval world).2 ∧
      Fetched name ((reloadDocument kind name).eval world) := by
  by_cases files : ∃ settings, kind = some (.files settings)
  · obtain ⟨settings, rfl⟩ := files
    rw [eval_reloadDocument_of_files]
    rcases eval_readDocument settings name world with
      ⟨error, failed⟩ | ⟨path, modified, text, -, -, -, read⟩
    · rw [failed]
      exact ⟨tended.refl, trivial⟩
    rw [read]
    have fresh := world.fresh_fileDescriptor settings name path modified text
    have ticked : Tends filled world [] world.tick := tended.aside (.of_eq rfl rfl rfl rfl)
    have made := ticked.trans (ticked.tended.addDescriptor fresh)
    have swept := made.trans made.tended.sweep
    refine enlist swept ((Newly.add world.tick fresh).of_descriptors (descriptors_sweep _)) ?_
    exact vacant.later swept.continues.progress fun entry member =>
      made.tended.mem_of_mem_sweep member
  · rw [eval_reloadDocument_of_memory fun settings isFiles => files ⟨settings, isFiles⟩]
    exact ⟨tended.forget vacant, trivial⟩

theorem fetch (tended : Tended [] world) (name : String) :
    Tends filled world [] ((fetchDocument name).eval world).2 ∧
      Fetched name ((fetchDocument name).eval world) := by
  cases kept : world.kept? name with
  | none =>
      rw [eval_fetchDocument_of_absent kept]
      exact tended.reload (tended.vacant (by simp [kept])) _
  | some id =>
  have member := mem_documentEntries_of_kept kept
  have known := tended.known name id member
  have held := tended.held name id member
  have checks := isValid_keeps id world
  rw [HostM.KeepsFrom] at checks
  have tends : Tends filled world [] _ := tended.checked checks
  rw [eval_fetchDocument_of_kept kept]
  rcases checked : (isValid id).eval world with ⟨error | valid, between⟩
  · rw [checked] at tends
    exact ⟨tends, trivial⟩
  rw [checked] at checks tends
  have keptBetween : between.kept? name = some id := by
    rw [kept?_of_source checks.source, kept]
  cases valid with
  | true =>
      refine ⟨tends, keptBetween, ?_, ?_, unmarked_of_isValid held checked, ?_⟩
      · rw [checks.size]
        exact known
      · rw [checks.dropped, held]
      · exact tends.tended.named name id (mem_documentEntries_of_kept keptBetween)
  | false =>
      have marked := marked_of_isValid tended.spread known held checked
      have vacant : Vacant name between := tends.tended.vacant fun other found => by
        rw [keptBetween] at found
        cases found
        exact marked
      obtain ⟨reloaded, fetched⟩ := tends.tended.reload vacant (world.source.map Source.kind)
      exact ⟨tends.trans reloaded, fetched⟩

/-- The slot that may be filled is one of a document of the name. -/
theorem seed {ε : Type} (tended : Tended [] world) (name text tag : String)
    (form : Option (String × ExecutableId)) (named : filled name) :
    Tends filled world [] ((seedDocument name text tag form : HostM ε _).eval world).2 ∧
      ∃ id, ((seedDocument name text tag form : HostM ε _).eval world).1 = .ok id ∧
        ((seedDocument name text tag form : HostM ε _).eval world).2.kept? name = some id ∧
        Newly name ((seedDocument name text tag form : HostM ε _).eval world).2 id := by
  by_cases stands : ∃ id, world.kept? name = some id ∧
      (world.descriptors.get id).invalidated = false
  · obtain ⟨id, kept, unmarked⟩ := stands
    have member := mem_documentEntries_of_kept kept
    have newly : Newly name world id :=
      ⟨tended.known name id member, tended.held name id member, unmarked,
        tended.named name id member⟩
    rw [eval_seedDocument_of_standing kept unmarked]
    cases form with
    | none => exact ⟨tended.refl, id, rfl, kept, newly⟩
    | some form =>
        have tends : Tends filled world [] (world.fillSlot id form.1 form.2).2 :=
          tended.fillSlot form.1 form.2 (by rwa [newly.named])
        refine ⟨tends, id, rfl, ?_, newly.fillSlot form.1 form.2⟩
        exact (kept?_of_source (source_fillSlot ..) name).trans kept
  have noneStands (id : DescriptorId) (kept : world.kept? name = some id) :
      (world.descriptors.get id).invalidated = true := by
    cases unmarked : (world.descriptors.get id).invalidated with
    | true => rfl
    | false => exact absurd ⟨id, kept, unmarked⟩ stands
  rw [eval_seedDocument_of_vacant noneStands]
  dsimp only
  have fresh := Descriptor.fresh_ofText name world.sourceIdentifier tag text world.sweep.clock
  generalize Descriptor.ofText name world.sourceIdentifier tag text world.sweep.clock = descriptor
    at fresh
  have swept : Tends filled world [] world.sweep := tended.sweep
  have ticks : Tends filled world.sweep [] world.sweep.tick :=
    swept.tended.aside (.of_eq rfl rfl rfl rfl)
  have ticked := swept.trans ticks
  have made := ticked.trans (ticked.tended.addDescriptor fresh)
  have newly := Newly.add world.sweep.tick fresh
  have vacant : Vacant name (world.sweep.tick.addDescriptor descriptor).2 :=
    (tended.vacant noneStands).later made.continues.progress fun entry member =>
      tended.mem_of_mem_sweep member
  cases form with
  | none =>
      obtain ⟨enlisted, kept, still⟩ := enlist made newly vacant
      exact ⟨enlisted, _, rfl, kept, still⟩
  | some form =>
      have fills : Tends filled _ _ _ :=
        made.tended.fillSlot form.1 form.2 (by rwa [newly.named])
      have vacantStill : Vacant name _ := vacant.later fills.continues.progress
        fun entry member => by
          rwa [documentEntries_of_source (source_fillSlot ..)] at member
      obtain ⟨enlisted, kept, still⟩ := enlist (made.trans fills)
        (newly.fillSlot form.1 form.2) vacantStill
      dsimp only [Option.elim_some]
      exact ⟨enlisted, _, rfl, kept, still⟩

/-- The document that is replaced is marked. -/
theorem put {ε : Type} (tended : Tended [] world) (name text tag : String) :
    Tends filled world [] ((putDocument name text tag : HostM ε _).eval world).2 ∧
      ∃ id, ((putDocument name text tag : HostM ε _).eval world).1 = .ok id ∧
        ((putDocument name text tag : HostM ε _).eval world).2.kept? name = some id := by
  rw [eval_putDocument]
  dsimp only
  have fresh := Descriptor.fresh_ofText name world.sourceIdentifier tag text world.clock
  generalize Descriptor.ofText name world.sourceIdentifier tag text world.clock = descriptor
    at fresh
  have ticked : Tends filled world [] world.tick := tended.aside (.of_eq rfl rfl rfl rfl)
  have made := ticked.trans (ticked.tended.addDescriptor fresh)
  have newly := Newly.add world.tick fresh
  cases kept : world.kept? name with
  | none =>
      have vacant : Vacant name world := tended.vacant (by simp [kept])
      obtain ⟨enlisted, keptAfter, -⟩ := enlist made newly
        (vacant.later made.continues.progress fun entry member => member)
      exact ⟨enlisted, _, rfl, keptAfter⟩
  | some old =>
      have inserted : Tends filled (world.tick.addDescriptor descriptor).2 [old] _ ∧ _ :=
        made.tended.insert newly.known newly.held newly.named
          (fun other found => by
            have same : world.kept? name = some other := found
            rw [kept] at same
            cases same
            exact .inr (by simp))
          (fun other member => .inl (by simpa using member))
      obtain ⟨placed, keptAfter⟩ := inserted
      refine ⟨?_, _, rfl, keptAfter⟩
      have member := mem_documentEntries_of_kept kept
      have known := Nat.lt_of_lt_of_le (tended.known name old member) made.continues.progress.size
      have invalidated := placed.trans (placed.tended.checked (.invalidate _ old))
      refine ⟨invalidated.tended.tie ?_, made.continues.trans invalidated.continues⟩
      intro other isOld _ unmarked
      rw [List.mem_singleton.1 isOld] at unmarked
      have held : ((world.tick.addDescriptor descriptor).2.descriptors.get old).dropped = false :=
        made.tended.held name old member
      rw [placed.tended.spread.marked_invalidate known held] at unmarked
      cases unmarked

/-- Descriptors that are linked to others and not marked are no more than the source keeps. -/
theorem length_le_of_linking (tended : Tended [] world) {chain : List DescriptorId}
    (distinct : chain.Nodup) (linking : ∀ id ∈ chain, world.Linking id) :
    chain.length ≤ world.documentEntries.length := by
  have members : chain ⊆ world.documentEntries.map Prod.snd := by
    intro id member
    obtain ⟨unmarked, depends⟩ := linking id member
    have known : id.index < world.descriptors.size := by
      apply Arena.known_of_ne_default
      intro isDefault
      rw [isDefault] at depends
      exact depends rfl
    have kept := (tended.kept id known unmarked).resolve_right nofun
    exact List.mem_map_of_mem (mem_documentEntries_of_kept kept)
  calc chain.length ≤ (world.documentEntries.map Prod.snd).length :=
        (List.subperm_of_subset distinct members).length_le
    _ = world.documentEntries.length := List.length_map _

end Tended

/-- A tended source, and a descriptor that exists, are tended further. -/
def Tending (filled : String → Prop) (id : DescriptorId) (world after : World) : Prop :=
  id.index < world.descriptors.size → Tended [] world → Tends filled world [] after

theorem Tending.tolerant (filled : String → Prop) (id : DescriptorId) :
    Tolerant (Tending filled id) := by
  refine .of_asides ⟨fun _ _ tended => tended.refl, fun first second known tended => ?_⟩
    fun aside _ tended => tended.aside aside
  have tends := first known tended
  have stillKnown := Nat.lt_of_lt_of_le known tends.continues.progress.size
  exact tends.trans (second stillKnown tends.tended)

/-- What is planted is seeded, and it is linked to if its document can be fetched. -/
theorem Tended.plant {filled : String → Prop} {world : World} (tended : Tended [] world)
    (document : Document) (name code tag : String) (form : String × ExecutableId)
    (named : filled name) :
    Tends filled world [] ((plantInFlow document name code tag form).eval world).2 := by
  obtain ⟨seeds, seeded, done, -, newly⟩ :=
    tended.seed (ε := ParsingError) name code tag (some form) named
  have fetches (name : String) : (fetchDocument name).Keeps (Tending filled seeded) :=
    fun _ _ still => (still.fetch name).1
  have attaches := (Tending.tolerant filled seeded).attachInFlow fetches
    (fun _ parent known still => still.linkDependent parent known) document
  rw [plantInFlow_eq, HostM.eval_bind_of_ok (Prod.ext done rfl)]
  exact seeds.trans (attaches _ newly.known seeds.tended)

/-! ## Chains of changes -/

theorem Tended.change {allowed : Bond → Prop} {world after : World} (tended : Tended [] world)
    (change : Change allowed world after) : Tends (fun _ => True) world [] after := by
  cases change with
  | aside aside => exact tended.aside aside
  | fetch name => exact (tended.fetch name).1
  | plant document name code tag form => exact tended.plant document name code tag form trivial
  | put name text tag => exact (tended.put name text tag).1
  | seed name text tag form => exact (tended.seed name text tag form trivial).1
  | check id => exact tended.checked (isValid_keeps id world)
  | invalidate id => exact tended.checked (.invalidate world id)
  | fill id key executable => exact tended.fillSlot key executable trivial
  | depend id dependency => exact tended.linkDependency id dependency
  | reclaim => exact tended.reclaim
  | bind bond known free unbound permitted => exact tended.of_same rfl rfl
  | unbind executable key => exact tended.of_same rfl rfl

/-- By induction on the chain. -/
theorem Tended.changes {allowed : Bond → Prop} {world after : World} (tended : Tended [] world)
    (changes : Changes allowed world after) : Tends (fun _ => True) world [] after := by
  induction changes with
  | refl => exact tended.refl
  | tail _ change ih => exact ih.trans (ih.tended.change change)

end World

end DocumentHost
