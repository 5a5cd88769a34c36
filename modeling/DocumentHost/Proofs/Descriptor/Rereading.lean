import DocumentHost.Proofs.Descriptor.Tending
import DocumentHost.Proofs.Host.Beside

/-!
# Fetching documents one after the other

While documents are fetched, the descriptors that are there keep what they depend on, and new
ones depend on nothing and have a file behind them.  What is fetched is valid at that moment:
it has just been checked, or it has just been read.
-/

namespace DocumentHost

namespace World

variable {world between after : World} {name : String} {id : DescriptorId}

/-! ## What becomes of descriptors -/

/-- What becomes of descriptors while documents are fetched.  Those that are there depend on what
they have depended on, and they go on to have a file or none; those that are made have a file and
depend on nothing. -/
structure Rereads (world after : World) : Prop where
  size : world.descriptors.size ≤ after.descriptors.size
  dependencies : ∀ id, id.index < world.descriptors.size →
    (after.descriptors.get id).dependencies = (world.descriptors.get id).dependencies
  backing : ∀ id, id.index < world.descriptors.size →
    ((after.descriptors.get id).backing = none ↔ (world.descriptors.get id).backing = none)
  made : ∀ id, ¬id.index < world.descriptors.size → id.index < after.descriptors.size →
    (after.descriptors.get id).backing ≠ none ∧ (after.descriptors.get id).dependencies = []

namespace Rereads

theorem of_descriptors (same : after.descriptors = world.descriptors) : Rereads world after := by
  refine ⟨by rw [same], fun id _ => by rw [same], fun id _ => by rw [same], fun id new known => ?_⟩
  rw [same] at known
  exact absurd known new

theorem lasting : Lasting Rereads where
  refl _ := of_descriptors rfl
  trans {world between after} first second := by
    refine ⟨Nat.le_trans first.size second.size, fun id known => ?_, fun id known => ?_,
      fun id new known => ?_⟩
    · rw [second.dependencies id (Nat.lt_of_lt_of_le known first.size),
        first.dependencies id known]
    · rw [second.backing id (Nat.lt_of_lt_of_le known first.size), first.backing id known]
    · by_cases early : id.index < between.descriptors.size
      · have made := first.made id new early
        rw [second.dependencies id early, Ne, second.backing id early]
        exact made
      · exact second.made id early known

theorem checked (checked : Checked world after) : Rereads world after := by
  refine ⟨Nat.le_of_eq checked.size.symm, fun id _ => ?_, fun id _ => ?_, fun id new known => ?_⟩
  · obtain ⟨_, _, _, same⟩ := checked.same id
    rw [same]
  · rcases checked.rechecked id with same | ⟨_, _, found, foundAfter, -⟩
    · rw [same]
    · rw [found, foundAfter]
      simp
  · rw [checked.size] at known
    exact absurd known new

/-- A descriptor of a file is made. -/
theorem addDescriptor (world : World) (settings : FileSettings) (name path : String)
    (modified : Instant) (text : String) :
    Rereads world (world.tick.addDescriptor
      (world.fileDescriptor settings name path modified text)).2 := by
  have before (id : DescriptorId) (known : id.index < world.descriptors.size) :=
    Arena.get_add_of_lt world.descriptors
      (world.fileDescriptor settings name path modified text) known
  refine ⟨Nat.le_of_lt (Arena.known_add ..), fun id known => ?_, fun id known => ?_,
    fun id new known => ?_⟩
  · exact congrArg Descriptor.dependencies (before id known)
  · exact (congrArg (fun descriptor => descriptor.backing = none) (before id known)).to_iff
  · have made := Arena.get_add_of_new new known
    rw [show (world.tick.addDescriptor _).2.descriptors.get id = _ from made]
    exact ⟨nofun, rfl⟩

theorem fetching : Fetching Rereads :=
  .of_descriptors lasting of_descriptors checked addDescriptor

/-- What links to others has done so before. -/
theorem linking (rereads : Rereads world after)
    (progress : Descriptors.Progress world.descriptors after.descriptors)
    (linking : after.Linking id) : world.Linking id := by
  obtain ⟨unmarked, depends⟩ := linking
  have known : id.index < world.descriptors.size := by
    by_contra new
    by_cases made : id.index < after.descriptors.size
    · exact depends (rereads.made id new made).2
    · rw [Arena.get_of_unknown _ made] at depends
      exact depends rfl
  exact ⟨progress.unmarked unmarked, by rwa [← rereads.dependencies id known]⟩

end Rereads

/-! ## The moment of a fetch -/

/-- All that the descriptor reaches is sound. -/
def Valid (world : World) (id : DescriptorId) : Prop :=
  ∀ reached, world.Reaches id reached → world.SoundAt world.clock reached

/-- What depends on nothing is valid if it is sound itself. -/
theorem Valid.of_sound (sound : world.SoundAt world.clock id)
    (independent : (world.descriptors.get id).dependencies = []) : world.Valid id := by
  intro reached reaches
  rcases Relation.ReflTransGen.cases_head reaches with rfl | ⟨dependency, depends, -⟩
  · exact sound
  · rw [DependsOn, independent] at depends
    cases depends

/-- What has just been read from a file is valid. -/
theorem valid_of_reload {kind : Option SourceKind}
    (reloaded : (reloadDocument kind name).eval world = (.ok id, after)) : after.Valid id := by
  by_cases files : ∃ settings, kind = some (.files settings)
  · obtain ⟨settings, rfl⟩ := files
    rw [eval_reloadDocument_of_files] at reloaded
    rcases eval_readDocument settings name world with
      ⟨error, failed⟩ | ⟨path, modified, text, -, dated, -, read⟩
    · rw [failed] at reloaded
      cases reloaded
    rw [read] at reloaded
    obtain ⟨made, rfl⟩ := Prod.mk.inj reloaded
    obtain rfl := Except.ok.inj made
    have same : (world.tick.addDescriptor
        (world.fileDescriptor settings name path modified text)).2.sweep.files = world.files :=
      ((Beside.documenting ⟨0⟩).sweep _).files
    have found : (world.tick.addDescriptor
        (world.fileDescriptor settings name path modified text)).2.sweep.descriptors.get
          (world.tick.addDescriptor (world.fileDescriptor settings name path modified text)).1 =
        world.fileDescriptor settings name path modified text := by
      rw [descriptors_sweep]
      exact Arena.get_add_self ..
    refine .of_sound ⟨?_, ?_, ?_⟩ (congrArg Descriptor.dependencies found)
    · exact congrArg Descriptor.dropped found
    · exact congrArg Descriptor.invalidated found
    · intro backing isBacking _
      have backed := (congrArg Descriptor.backing found).symm.trans isBacking
      cases backed
      exact ⟨modified, by rw [← dated, ← same]; rfl, Int.le_refl _⟩
  · rw [eval_reloadDocument_of_memory fun settings isFiles => files ⟨settings, isFiles⟩] at reloaded
    cases reloaded

/-- What is fetched is valid, either in the state in which the fetch begins or in the one in
which it ends. -/
theorem Tended.valid_of_fetch {loose : List DescriptorId} (tended : Tended loose world)
    (fetched : (fetchDocument name).eval world = (.ok id, after)) :
    (world.kept? name = some id ∧ world.Valid id) ∨ after.Valid id := by
  cases kept : world.kept? name with
  | none =>
      rw [eval_fetchDocument_of_absent kept] at fetched
      exact .inr (valid_of_reload fetched)
  | some present =>
      rw [eval_fetchDocument_of_kept kept] at fetched
      rcases judged : (isValid present).eval world with ⟨error | _ | _, between⟩ <;>
        rw [judged] at fetched
      · cases fetched
      · exact .inr (valid_of_reload fetched)
      · cases fetched
        have held := tended.held name id (mem_documentEntries_of_kept kept)
        exact .inl ⟨rfl, fun reached reaches => soundAt_of_reaches held judged reaches⟩

/-! ## One document after the other -/

/-- Documents are fetched, one after the other. -/
def Fetches : World → World → Prop :=
  Relation.ReflTransGen fun world after => ∃ name id,
    (fetchDocument name).eval world = (.ok id, after)

/-- While documents are fetched, there is a moment at which the source keeps a descriptor under
a name, and it is valid. -/
def Offers (world after : World) (name : String) (id : DescriptorId) : Prop :=
  ∃ between, Fetches world between ∧ Fetches between after ∧
    between.kept? name = some id ∧ between.Valid id

namespace Fetches

theorem of_lasting {Related : World → World → Prop} (lasting : Lasting Related)
    (fetch : ∀ name, (fetchDocument name).Keeps Related) (fetches : Fetches world after) :
    Related world after := by
  induction fetches with
  | refl => exact lasting.refl world
  | @tail between after _ step ih =>
      obtain ⟨name, id, fetched⟩ := step
      have kept := fetch name between
      rw [HostM.KeepsFrom, fetched] at kept
      exact lasting.trans ih kept

theorem rereads (fetches : Fetches world after) : Rereads world after :=
  fetches.of_lasting Rereads.lasting Rereads.fetching.fetchDocument

theorem beside (fetches : Fetches world after) : Beside ⟨0⟩ world after :=
  fetches.of_lasting (Beside.lasting ⟨0⟩) (Beside.documenting ⟨0⟩).fetchDocument

/-- By induction on the fetches. -/
theorem tends (tended : Tended [] world) (fetches : Fetches world after) :
    Tends (fun _ => True) world [] after := by
  induction fetches with
  | refl => exact tended.refl
  | @tail between after _ step ih =>
      obtain ⟨name, id, fetched⟩ := step
      obtain ⟨tends, -⟩ : Tends (fun _ => True) between [] _ ∧ _ := ih.tended.fetch name
      rw [fetched] at tends
      exact ih.trans tends

end Fetches

/-- By induction on the names. -/
theorem Tended.offers (tended : Tended [] world) {names : List String} {ids : List DescriptorId}
    (fetched : (fetchDocuments names).eval world = (.ok ids, after)) :
    Fetches world after ∧ List.Forall₂ (Offers world after) names ids := by
  induction names generalizing world ids with
  | nil =>
      cases fetched
      exact ⟨.refl, .nil⟩
  | cons name rest ih =>
      obtain ⟨first, between, one, others⟩ := HostM.eval_bind_eq_ok_iff.1 fetched
      obtain ⟨read, behind, many, returned⟩ := HostM.eval_bind_eq_ok_iff.1 others
      cases returned
      obtain ⟨tends, isFetched⟩ : Tends (fun _ => True) world [] _ ∧ _ := tended.fetch name
      rw [one] at tends isFetched
      have step : Fetches world between := .single ⟨name, first, one⟩
      obtain ⟨onward, offered⟩ := ih tends.tended many
      refine ⟨step.trans onward, .cons ?_ (offered.imp fun other id isOffered => ?_)⟩
      · rcases tended.valid_of_fetch one with ⟨kept, valid⟩ | valid
        · exact ⟨world, .refl, step.trans onward, kept, valid⟩
        · exact ⟨between, step, onward, isFetched.1, valid⟩
      · obtain ⟨moment, before, later, found⟩ := isOffered
        exact ⟨moment, step.trans before, later, found⟩

end World

end DocumentHost
