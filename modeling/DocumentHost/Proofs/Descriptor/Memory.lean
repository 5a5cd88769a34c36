import DocumentHost.Mini.Language
import DocumentHost.Proofs.Descriptor.Growth
import DocumentHost.Proofs.Descriptor.OnePerName

/-!
# Documents in memory

What is put into a source in memory stays there word for word, and it can be fetched at once.
Later on it can be fetched for as long as it and all that it depends on are in store.  When a
document is replaced that another one has included, the other one is not found any longer, and
the source forgets it: nothing is there that it could be read from again.
-/

namespace DocumentHost

open World

namespace World

/-- The source keeps documents in memory, and no descriptor has a file behind it. -/
structure InMemory (world : World) : Prop where
  kind : world.source.map Source.kind = some .memory
  unbacked : ∀ id, (world.descriptors.get id).backing = none

/-- A source that keeps documents in memory goes on to do so. -/
def Remembering (world after : World) : Prop :=
  world.InMemory → after.InMemory

namespace Remembering

variable {world after : World}

theorem lasting : Lasting Remembering where
  refl _ inMemory := inMemory
  trans first second inMemory := second (first inMemory)

/-- A change of descriptors that puts no files behind them. -/
theorem of_same (source : after.source.map Source.kind = world.source.map Source.kind)
    (unbacked : ∀ id, (world.descriptors.get id).backing = none →
      (after.descriptors.get id).backing = none) : Remembering world after :=
  fun inMemory => ⟨source.trans inMemory.kind, fun id => unbacked id (inMemory.unbacked id)⟩

theorem of_descriptors (source : after.source.map Source.kind = world.source.map Source.kind)
    (descriptors : after.descriptors = world.descriptors) : Remembering world after :=
  of_same source fun id => by
    rw [descriptors]
    exact fun unbacked => unbacked

theorem aside (aside : Aside world after) : Remembering world after :=
  of_descriptors (by rw [aside.source]) aside.descriptors

theorem tolerant : Tolerant Remembering :=
  .of_asides lasting aside

theorem checked (checked : Checked world after) : Remembering world after := by
  refine of_same (by rw [checked.source]) fun id unbacked => ?_
  rcases checked.rechecked id with same | ⟨_, _, found, -⟩
  · exact same.trans unbacked
  · rw [unbacked] at found
    cases found

theorem make {ε : Type} (name partition tag text : String) :
    (newDescriptor name partition tag text : HostM ε DescriptorId).Keeps Remembering := by
  intro world
  refine of_same rfl fun id unbacked => ?_
  change ((world.descriptors.add _).2.get id).backing = none
  rw [Arena.get_add]
  split
  · rfl
  · exact unbacked

theorem storing : Storing Remembering where
  lasting := lasting
  checked := checked
  make := make
  fill world id key executable := by
    refine of_same (by rw [source_fillSlot]) fun other => ?_
    obtain ⟨_, same, -⟩ := get_fillSlot world id key executable other
    rw [same]
    exact fun unbacked => unbacked
  documents world change := by
    refine of_descriptors ?_ rfl
    rw [World.modifyDocuments, Option.map_map]
    rfl
  release world := aside (.releaseUnheld world)

/-- There is no file that a document is read from. -/
theorem fetch (name : String) : (fetchDocument name).Keeps Remembering := by
  intro world inMemory
  have nothing (settings : FileSettings) :
      world.source.map Source.kind ≠ some (.files settings) := by
    rw [inMemory.kind]
    nofun
  have checks (id : DescriptorId) := storing.isValid id world inMemory
  cases kept : world.kept? name with
  | none =>
      rw [eval_fetchDocument_of_absent kept, eval_reloadDocument_of_memory nothing]
      exact storing.forget world name inMemory
  | some id =>
      have still := checks id
      rw [eval_fetchDocument_of_kept kept]
      rcases checked : (isValid id).eval world with ⟨error | _ | _, between⟩
      · rw [checked] at still
        exact still
      · rw [checked] at still
        dsimp only
        rw [eval_reloadDocument_of_memory nothing]
        exact storing.forget between name still
      · rw [checked] at still
        exact still

theorem link (world : World) (id dependent : DescriptorId) :
    Remembering world (world.linkDependent id dependent) := by
  obtain ⟨source, -, same⟩ := get_linkDependent world id dependent
  refine of_same (by rw [source]) fun other => ?_
  obtain ⟨_, _, changed⟩ := same other
  rw [changed]
  exact fun unbacked => unbacked

theorem change {allowed : Bond → Prop} (change : Change allowed world after) :
    Remembering world after := by
  cases change with
  | aside beside => exact aside beside
  | fetch name => exact fetch name world
  | plant document name code tag form =>
      exact storing.plantInFlow tolerant fetch link document name code tag form world
  | put name text tag => exact storing.putDocument name text tag world
  | seed name text tag form => exact storing.seedDocument name text tag form world
  | check id => exact storing.isValid id world
  | invalidate id => exact checked (.invalidate world id)
  | fill id key executable => exact storing.fill world id key executable
  | depend id dependency =>
      refine of_same rfl fun other => ?_
      obtain ⟨_, same⟩ := get_linkDependency world id dependency other
      rw [same]
      exact fun unbacked => unbacked
  | reclaim =>
      refine lasting.reclaim (fun state id => of_same rfl fun other => ?_) storing.release world
      refine Arena.related_modify (fun before after => before.backing = none → after.backing = none)
        (fun _ unbacked => unbacked) state.descriptors id ?_ other
      exact fun unbacked => unbacked
  | bind bond known free unbound permitted => exact of_descriptors rfl rfl
  | unbind executable key => exact of_descriptors rfl rfl

/-- By induction on the chain. -/
theorem changes {allowed : Bond → Prop} (changes : Changes allowed world after) :
    Remembering world after := by
  induction changes with
  | refl => exact lasting.refl world
  | tail _ step ih => exact lasting.trans ih (change step)

end Remembering

/-! ## What can be fetched -/

/-- A descriptor and all that it depends on are held, and none of them is marked. -/
def Intact (world : World) (id : DescriptorId) : Prop :=
  ∀ reached, world.Reaches id reached →
    (world.descriptors.get reached).dropped = false ∧
      (world.descriptors.get reached).invalidated = false

variable {world : World} {id : DescriptorId} {name : String}

theorem Unused.inMemory (unused : world.Unused)
    (kind : world.source.map Source.kind = some .memory) : world.InMemory := by
  refine ⟨kind, fun id => ?_⟩
  rw [Arena.get_of_unknown _ (by rw [unused.descriptors]; omega)]
  rfl

/-- Without files there is a verdict, and it is about marks and drops alone. -/
theorem InMemory.eval_isValid (inMemory : world.InMemory) (tended : Tended [] world)
    (few : world.documentEntries.length ≤ dependencyLimit)
    (held : (world.descriptors.get id).dropped = false) :
    ∃ valid after, (isValid id).eval world = (.ok valid, after) ∧
      (valid = true ↔ world.Intact id) := by
  rcases checked : (isValid id).eval world with ⟨error | _ | _, after⟩
  · obtain ⟨chain, long, distinct, linking⟩ := exists_chain_of_isValid held checked
    have bounded := tended.length_le_of_linking distinct linking
    omega
  · refine ⟨false, after, rfl, nofun, fun intact => ?_⟩
    obtain ⟨reached, reaches, broken⟩ := exists_broken_of_isValid held checked
    obtain ⟨isHeld, unmarked⟩ := intact reached reaches
    rcases broken with dropped | marked | ⟨backing, found, -⟩
    · rw [isHeld] at dropped
      cases dropped
    · rw [unmarked] at marked
      cases marked
    · rw [inMemory.unbacked] at found
      cases found
  · refine ⟨true, after, rfl, fun _ reached reaches => ?_, fun _ => rfl⟩
    have sound := soundAt_of_reaches held checked reaches
    exact ⟨sound.held, sound.unmarked⟩

/-- What the source keeps under a name is given out if it is intact, and forgotten otherwise. -/
theorem InMemory.eval_fetchDocument (inMemory : world.InMemory) (tended : Tended [] world)
    (few : world.documentEntries.length ≤ dependencyLimit) (kept : world.kept? name = some id) :
    (world.Intact id → ((fetchDocument name).eval world).1 = .ok id) ∧
      (¬world.Intact id → ((fetchDocument name).eval world).1 = .error (.notFound name) ∧
        ((fetchDocument name).eval world).2.kept? name = none) := by
  have held := tended.held name id (mem_documentEntries_of_kept kept)
  have nothing (settings : FileSettings) :
      world.source.map Source.kind ≠ some (.files settings) := by
    rw [inMemory.kind]
    nofun
  obtain ⟨valid, after, checked, verdict⟩ := inMemory.eval_isValid tended few held
  rw [eval_fetchDocument_of_kept kept, checked]
  cases valid with
  | true => exact ⟨fun _ => rfl, fun broken => absurd (verdict.1 rfl) broken⟩
  | false =>
      dsimp only
      rw [eval_reloadDocument_of_memory nothing]
      refine ⟨fun intact => absurd (verdict.2 intact) Bool.false_ne_true, fun _ => ⟨rfl, ?_⟩⟩
      have forgotten := Aside.releaseUnheld
        (after.modifyDocuments fun documents => documents.erase name)
      rw [forget, kept?_of_source forgotten.source]
      cases source : after.source with
      | none => simp [kept?, modifyDocuments, source]
      | some present => simp [kept?, modifyDocuments, source, NameTable.get?_erase_self]

/-- What is found under a name is what the source keeps under it, and it is intact. -/
theorem InMemory.intact_of_fetched (inMemory : world.InMemory) (tended : Tended [] world)
    (few : world.documentEntries.length ≤ dependencyLimit)
    (fetched : ((fetchDocument name).eval world).1 = .ok id) : world.Intact id := by
  cases kept : world.kept? name with
  | none =>
      rw [eval_fetchDocument_of_absent kept, inMemory.kind] at fetched
      cases fetched
  | some other =>
      obtain ⟨found, lost⟩ := inMemory.eval_fetchDocument tended few kept
      by_cases intact : world.Intact other
      · rw [found intact] at fetched
        cases fetched
        exact intact
      · rw [(lost intact).1] at fetched
        cases fetched

/-- What has just been put depends on nothing, and nothing that is marked for its sake has a
link to it. -/
theorem Tended.put_intact {ε : Type} (tended : Tended [] world) (name text tag : String) :
    ∃ id after, (putDocument name text tag : HostM ε _).eval world = (.ok id, after) ∧
      Newly name after id ∧ (after.descriptors.get id).text = text ∧ after.Intact id := by
  have fresh := Descriptor.fresh_ofText name world.sourceIdentifier tag text world.clock
  have hasText : (Descriptor.ofText name world.sourceIdentifier tag text world.clock).text = text :=
    rfl
  rw [eval_putDocument]
  generalize Descriptor.ofText name world.sourceIdentifier tag text world.clock = descriptor
    at fresh hasText
  let made := world.tick.addDescriptor descriptor
  let stored := made.2.modifyDocuments fun documents => documents.insert name made.1
  have known : made.1.index < stored.descriptors.size := Arena.known_add ..
  have found : stored.descriptors.get made.1 = descriptor := Arena.get_add_self ..
  -- whatever becomes of the document that is replaced, only links could lead from it to the new one
  have unlinked (other : DescriptorId) : made.1 ∉ (stored.descriptors.get other).dependents := by
    intro member
    have get : stored.descriptors.get other =
        if other = made.1 then descriptor else world.descriptors.get other := Arena.get_add ..
    rw [get] at member
    split at member
    · rw [fresh.dependents] at member
      cases member
    · exact Nat.lt_irrefl _ (tended.spread.known other _ member)
  have intact {after : World} (size : after.descriptors.size = stored.descriptors.size)
      {dependents : List DescriptorId}
      (same : after.descriptors.get made.1 = { descriptor with dependents }) :
      Newly name after made.1 ∧ (after.descriptors.get made.1).text = text ∧
        after.Intact made.1 := by
    refine ⟨⟨?_, ?_, ?_, ?_⟩, ?_, fun reached reaches => ?_⟩
    · rwa [size]
    · rw [same, fresh.held]
    · rw [same, fresh.unmarked]
    · rw [same, fresh.name]
    · rw [same, hasText]
    · rcases Relation.ReflTransGen.cases_head reaches with rfl | ⟨dependency, depends, -⟩
      · rw [same, fresh.held, fresh.unmarked]
        exact ⟨rfl, rfl⟩
      · rw [DependsOn, same, fresh.dependencies] at depends
        cases depends
  cases kept : world.kept? name with
  | none => exact ⟨made.1, stored, rfl, intact rfl found⟩
  | some old =>
      obtain ⟨invalidated, dependents, same⟩ :=
        Descriptors.get_invalidateAll [old] stored.descriptors made.1
      have unmarked : invalidated = false := by
        rw [← Bool.not_eq_true]
        rintro rfl
        obtain ⟨root, isOld, -, path⟩ := Descriptors.reached_of_invalidateAll [old]
          stored.descriptors (by rw [found, fresh.unmarked]) (by rw [same])
        rw [List.mem_singleton] at isOld
        subst isOld
        rcases Relation.ReflTransGen.cases_tail path with isNew | ⟨other, -, link, -⟩
        · have before := tended.known name root (mem_documentEntries_of_kept kept)
          rw [← isNew] at before
          exact Nat.lt_irrefl _ before
        · exact unlinked other link
      rw [unmarked, found, ← fresh.unmarked] at same
      exact ⟨made.1, stored.invalidate old, rfl, intact (Descriptors.size_invalidateAll ..) same⟩

end World

/-- A document that has been put into a source in memory is intact then.  From then on its
descriptor has its name and its text, and the document is found under the name just as long as
it is intact.  When something that it depends on has been replaced meanwhile, it is not found,
and the source forgets it. -/
theorem memory_fetched_while_intact {allowed : Bond → Prop} {origin world after later : World}
    (unused : origin.Unused) (kind : origin.source.map Source.kind = some .memory)
    (run : ActsOn allowed origin world) {name text tag : String} {id : DescriptorId}
    (put : (putDocument name text tag : HostM Empty _).eval world = (.ok id, after))
    (onward : ActsOn allowed after later)
    (few : later.documentEntries.length ≤ dependencyLimit) :
    after.Intact id ∧
      (later.descriptors.get id).name = name ∧ (later.descriptors.get id).text = text ∧
      (((fetchDocument name).eval later).1 = .ok id ↔ later.Intact id) ∧
      (later.kept? name = some id → ¬later.Intact id →
        ((fetchDocument name).eval later).1 = .error (.notFound name) ∧
          ((fetchDocument name).eval later).2.kept? name = none) := by
  have before : Tended [] world := (unused.tended.changes run.changes).tended
  obtain ⟨made, between, done, newly, hasText, intact⟩ :=
    before.put_intact (ε := Empty) name text tag
  rw [put] at done
  cases done
  obtain ⟨tendsPut, -⟩ : Tends (fun _ => True) world [] _ ∧ _ :=
    before.put (ε := Empty) name text tag
  have placed : InMemory after :=
    (Remembering.storing.putDocument (ε := Empty) name text tag).leads put
      (Remembering.changes run.changes (unused.inMemory kind))
  have inMemory := Remembering.changes onward.changes placed
  rw [put] at tendsPut
  have tends := tendsPut.tended.changes onward.changes
  have grows := Grows.changes onward.changes
  have grown := grows.descriptors id newly.known
  have named : (later.descriptors.get id).name = name := grown.name.trans newly.named
  refine ⟨intact, named, grown.text.trans hasText,
    ⟨inMemory.intact_of_fetched tends.tended few, fun intactLater => ?_⟩, fun kept =>
      (inMemory.eval_fetchDocument tends.tended few kept).2⟩
  have known := Nat.lt_of_lt_of_le newly.known grows.size
  have kept := (tends.tended.kept id known (intactLater id .refl).2).resolve_right
    List.not_mem_nil
  rw [named] at kept
  exact (inMemory.eval_fetchDocument tends.tended few kept).1 intactLater

section Replacement

/-- A host that keeps its documents in memory. -/
def memoryHost : World where
  toLanguages := .of [⟨Mini.adapter (.ofTag "Mini" "mini"), true⟩] [[⟨0⟩]]
  source := some (.inMemory "m")
  sinks := ⟨[{}, {}]⟩

/-- A document has been put. -/
def partStored : World :=
  ((putDocument "part" "one" "" : HostM Empty _).eval memoryHost).2

/-- Another one has been put that includes the first one. -/
def pageStored : World :=
  ((putDocument "page" "<% include \"part\" %>" "" : HostM Empty _).eval partStored).2

def pageCreated : World :=
  ((obtainExecutable
    { registry := ⟨0⟩, sourced := true
      options := { parser := scriptletsParser, defaultTag := some "mini" } } "page").eval
    ((newContext ⟨0⟩ ⟨1⟩ : HostM Empty ContextId).eval pageStored).2).2

def pageRun : World :=
  ((execute ⟨0⟩ ⟨0⟩).eval pageCreated).2

/-- The first document has been put again. -/
def partReplaced : World :=
  ((putDocument "part" "two" "" : HostM Empty _).eval pageRun).2

theorem actsOn_partReplaced : ActsOn (fun _ => True) pageStored partReplaced := by
  have made : Aside pageStored ((newContext ⟨0⟩ ⟨1⟩ : HostM Empty ContextId).eval pageStored).2 :=
    .addContext pageStored rfl
  exact .head (.aside made) (.head (.create _ "page") (.head
    (.execute ⟨0⟩ ⟨0⟩ none none (by decide +kernel) nofun) (.single (.put "part" "two" ""))))

theorem memory_fetched_while_intact_replaced :
    memoryHost.Unused ∧ pageStored.Intact ⟨1⟩ ∧ ¬partReplaced.Intact ⟨1⟩ ∧
      (partReplaced.descriptors.get ⟨1⟩).text = "<% include \"part\" %>" ∧
      ((fetchDocument "page").eval partReplaced).1 = .error (.notFound "page") ∧
      ((fetchDocument "page").eval partReplaced).2.kept? "page" = none := by
  have unused : memoryHost.Unused := ⟨rfl, rfl, rfl⟩
  have run : ActsOn (fun _ => True) memoryHost partStored := .single (.put "part" "one" "")
  have put : (putDocument "page" "<% include \"part\" %>" "" : HostM Empty _).eval partStored =
      (.ok ⟨1⟩, pageStored) := rfl
  obtain ⟨few, kept, depends, marked⟩ :
      partReplaced.documentEntries.length ≤ dependencyLimit ∧
        partReplaced.kept? "page" = some ⟨1⟩ ∧
        (partReplaced.descriptors.get ⟨1⟩).dependencies = [⟨0⟩] ∧
        (partReplaced.descriptors.get ⟨0⟩).invalidated = true := by decide +kernel
  have broken : ¬partReplaced.Intact ⟨1⟩ := by
    intro intact
    have reaches : partReplaced.Reaches ⟨1⟩ ⟨0⟩ := by
      refine .single ?_
      rw [World.DependsOn, depends]
      exact List.mem_singleton.2 rfl
    have unmarked := (intact ⟨0⟩ reaches).2
    rw [marked] at unmarked
    cases unmarked
  obtain ⟨intact, -, text, -, lost⟩ :=
    memory_fetched_while_intact unused rfl run put actsOn_partReplaced few
  exact ⟨unused, intact, broken, text, lost kept broken⟩

/-- A document is found after it has been run, and is lost when what it includes is put again. -/
theorem fetchDocument_lost_by_replacement :
    ((fetchDocument "page").eval pageRun).1 = .ok ⟨1⟩ ∧
      (pageRun.descriptors.get ⟨1⟩).text = "<% include \"part\" %>" ∧
      ((fetchDocument "page").eval partReplaced).1 = .error (.notFound "page") := by
  decide +kernel

end Replacement

end DocumentHost
