import DocumentHost.Proofs.Host.Abreast
import DocumentHost.Proofs.Host.Preparing

/-!
# A document that is compiled in twin states

When a document is compiled with its programs checked in one host and without in its twin, each
in-flow code gets the same executable in both, in a new descriptor under a key of its own.  So
they are twins again when the document has been compiled, and the document can be run in them
side by side.
-/

namespace DocumentHost

open World

open Mini (firstMistake?)

variable {eager lazy : World}

/-- No document stands under the name of in-flow code with a number. -/
def World.Free (world : World) (document : Document) (number : Nat) : Prop :=
  world.Lacks (inFlowDocumentName document number)

/-! ## What is made alike -/

theorem Descriptor.Twin.eq_of_empty {first second : Descriptor} (twin : first.Twin second)
    (empty : first.slots = {}) : second = first := by
  obtain ⟨⟨⟨entries⟩, rfl⟩, forms⟩ := twin
  rw [empty] at forms
  obtain rfl : entries = [] := List.map_eq_nil_iff.1 forms
  cases first
  cases empty
  rfl

namespace World.Twins

theorem lacks (twins : Twins eager lazy) {name : String} (lacks : eager.Lacks name) :
    lazy.Lacks name := by
  obtain ⟨_, _, rfl⟩ := twins.rest
  exact ⟨lacks.kept, lacks.file⟩

theorem withExecutable (twins : Twins eager lazy) (setting : Setting) (ahead : Bool)
    (document : Document) (segments : List Segment) :
    (lazy.withExecutable (setting.preparing ahead) document segments).1 =
        (eager.withExecutable setting document segments).1 ∧
      Twins (eager.withExecutable setting document segments).2
        (lazy.withExecutable (setting.preparing ahead) document segments).2 := by
  obtain ⟨⟨_, _, rfl⟩, executables, descriptors⟩ := twins
  let made : Executable :=
    { documentName := document.name, partition := document.partition
      timestamp := document.timestamp, setting, segments, lastUsed := eager.clock }
  have twin : made.Twin { made with setting := setting.preparing ahead } := ⟨ahead, rfl⟩
  obtain ⟨same, added⟩ := executables.add twin
  exact ⟨same, ⟨_, _, rfl⟩, added, descriptors⟩

/-- The first slot of a descriptor is filled under two keys. -/
theorem fillSlot (twins : Twins eager lazy) {id : DescriptorId}
    (empty : (eager.descriptors.get id).slots = {}) (key otherKey : String)
    (executable : ExecutableId) :
    Twins (eager.fillSlot id key executable).2 (lazy.fillSlot id otherKey executable).2 := by
  have same := (twins.descriptors.get id).eq_of_empty empty
  have vacant (key : String) : ({} : NameTable ExecutableId).get? key = none := rfl
  rw [World.fillSlot, World.fillSlot, same, empty, vacant, vacant]
  obtain ⟨⟨_, _, rfl⟩, executables, descriptors⟩ := twins
  refine ⟨⟨_, _, rfl⟩, executables, descriptors.modify id ?_⟩
  rw [show Arena.get _ id = _ from same]
  refine ⟨⟨_, rfl⟩, ?_⟩
  dsimp only
  rw [empty]
  rfl

end World.Twins

namespace World.Unmoved

theorem addDescriptor (world : World) {descriptor : Descriptor}
    (unneeded : descriptor.dependents = []) : Unmoved world (world.addDescriptor descriptor).2 :=
  ⟨Grows.documenting.add world unneeded, .of_executables rfl, fun _ => .of_same rfl rfl⟩

theorem fillSlot (world : World) (id : DescriptorId) (key : String) (executable : ExecutableId) :
    Unmoved world (world.fillSlot id key executable).2 := by
  refine ⟨Grows.documenting.fill world id key executable, ?_, fun _ =>
    .of_same (source_fillSlot ..) ?_⟩
  · refine .of_executables ?_
    unfold World.fillSlot
    split <;> rfl
  · unfold World.fillSlot
    split <;> rfl

theorem sweep (world : World) : Unmoved world world.sweep := by
  refine ⟨.of_descriptors (descriptors_sweep world), ?_, fun _ => .sweep world⟩
  have retained : SamePrograms world (world.modifyDocuments fun documents =>
      documents.retain fun id => !(world.descriptors.get id).invalidated) := .of_executables rfl
  exact SamePrograms.lasting.trans retained (SamePrograms.tolerant.releaseUnheld _)

theorem tick (world : World) : Unmoved world world.tick :=
  .of_eq rfl rfl rfl rfl

theorem withExecutable (world : World) (setting : Setting) (document : Document)
    (segments : List Segment) :
    Unmoved world (world.withExecutable setting document segments).2 := by
  let made : Executable :=
    { documentName := document.name, partition := document.partition
      timestamp := document.timestamp, setting, segments, lastUsed := world.clock }
  have unbound : made.enterable = {} := rfl
  exact lasting.trans (tick world) (tolerant.outside (.addExecutable world.tick unbound))

end World.Unmoved

/-! ## In-flow code -/

namespace Alongside

variable {setting : Setting} {document : Document} {free : Nat → Prop}

/-- What a descriptor holds that is entered is found under both keys. -/
theorem enter (alongside : Alongside setting document free eager lazy) (name : String)
    {id : DescriptorId} {executable : ExecutableId}
    (slot : (eager.descriptors.get id).slots.get?
      (setting.preparing true).options.forIncludes.compileKey = some executable)
    (lazySlot : (lazy.descriptors.get id).slots.get?
      (setting.preparing false).options.forIncludes.compileKey = some executable) :
    Alongside setting document free
      (eager.modifyDocuments fun documents => documents.insert name id)
      (lazy.modifyDocuments fun documents => documents.insert name id) where
  twins := alongside.twins.modifyDocuments _
  unfiled number isFree := (alongside.unfiled number isFree).modifyDocuments _
  forms number isFree other member := by
    obtain ⟨documents, entries, inserted⟩ := exists_of_mem_modifyDocuments member
    rcases NameTable.eq_or_mem_of_mem_insertEntry inserted with ⟨-, rfl⟩ | stood
    · exact ⟨executable, slot, lazySlot⟩
    · rw [← entries] at stood
      exact alongside.forms number isFree other stood

/-- A document that neither source has is put into both, with one compiled form. -/
theorem seedDocument (alongside : Alongside setting document free eager lazy) {name : String}
    (lacks : eager.Lacks name) (text tag : String) (executable : ExecutableId) :
    ∃ id after lazyAfter,
      (DocumentHost.seedDocument name text tag
        (some ((setting.preparing true).options.forIncludes.compileKey, executable)) :
          HostM ParsingError _).eval eager = (.ok id, after) ∧
      (DocumentHost.seedDocument name text tag
        (some ((setting.preparing false).options.forIncludes.compileKey, executable)) :
          HostM ParsingError _).eval lazy = (.ok id, lazyAfter) ∧
      Alongside setting document free after lazyAfter := by
  have vacant {world : World} (lacks : world.Lacks name) (id : DescriptorId)
      (kept : world.kept? name = some id) : (world.descriptors.get id).invalidated = true := by
    rw [lacks.kept] at kept
    cases kept
  rw [eval_seedDocument_of_vacant (vacant lacks),
    eval_seedDocument_of_vacant (vacant (alongside.twins.lacks lacks))]
  have swept := alongside.twins.sweep
  have sameDescriptor : Descriptor.ofText name lazy.sourceIdentifier tag text lazy.sweep.clock =
      Descriptor.ofText name eager.sourceIdentifier tag text eager.sweep.clock := by
    obtain ⟨_, _, clock⟩ := swept.rest
    obtain ⟨_, _, rest⟩ := alongside.twins.rest
    rw [clock, rest]
    rfl
  rw [sameDescriptor]
  generalize isMade : Descriptor.ofText name eager.sourceIdentifier tag text eager.sweep.clock = made
  have empty : made.slots = {} := by
    rw [← isMade]
    rfl
  have unneeded : made.dependents = [] := by
    rw [← isMade]
    rfl
  obtain ⟨same, added⟩ := swept.tick.addDescriptor (Descriptor.Twin.refl made)
  have adding (world : World) :
      Unmoved world (world.sweep.tick.addDescriptor made).2 :=
    Unmoved.lasting.trans (Unmoved.lasting.trans (.sweep world) (.tick world.sweep))
      (.addDescriptor world.sweep.tick unneeded)
  have slots (world : World) (key : String) :
      (((world.sweep.tick.addDescriptor made).2.fillSlot
        (world.sweep.tick.addDescriptor made).1 key executable).2.descriptors.get
        (world.sweep.tick.addDescriptor made).1).slots.get? key = some executable :=
    (Seeded.fillSlot (Arena.known_add ..) (Arena.get_add_self ..) empty key executable).slot
  have emptyAdded : ((eager.sweep.tick.addDescriptor made).2.descriptors.get
      (eager.sweep.tick.addDescriptor made).1).slots = {} := by
    rw [World.addDescriptor]
    exact (congrArg Descriptor.slots (Arena.get_add_self ..)).trans empty
  have filled := added.fillSlot emptyAdded
    (setting.preparing true).options.forIncludes.compileKey
    (setting.preparing false).options.forIncludes.compileKey executable
  have further := alongside.later filled
    (Unmoved.lasting.trans (adding eager) (.fillSlot _ _ _ _))
    (Unmoved.lasting.trans (adding lazy) (.fillSlot _ _ _ _))
  have lazySlot := slots lazy (setting.preparing false).options.forIncludes.compileKey
  rw [same] at lazySlot
  dsimp only
  rw [same]
  exact ⟨_, _, _, rfl, rfl, further.enter name (slots eager _) lazySlot⟩

/-- In-flow code is planted in both, and made to depend on its document. -/
theorem plantInFlow (alongside : Alongside setting document free eager lazy) {name : String}
    (lacks : eager.Lacks name) (text tag : String) (executable : ExecutableId) :
    Alongside setting document free
      ((DocumentHost.plantInFlow document name text tag
        ((setting.preparing true).options.forIncludes.compileKey, executable)).eval eager).2
      ((DocumentHost.plantInFlow document name text tag
        ((setting.preparing false).options.forIncludes.compileKey, executable)).eval lazy).2 := by
  obtain ⟨id, after, lazyAfter, seeds, lazySeeds, seeded⟩ :=
    alongside.seedDocument lacks text tag executable
  have attaches : (attachInFlow document id).Keeps Unmoved :=
    Unmoved.tolerant.attachInFlow Unmoved.fetchDocument
      (fun world parent => Unmoved.linkDependent world parent id) document
  rw [plantInFlow_eq, plantInFlow_eq, HostM.eval_bind_of_ok seeds,
    HostM.eval_bind_of_ok lazySeeds]
  exact seeded.later (Twins.attachInFlow_agree document id _ _ seeded.twins).2 (attaches after)
    (attaches lazyAfter)

end Alongside

/-! ## Compilations -/

/-- Two hosts in which a document is compiled that has come to a number of segments: of the numbers
from there on, those that were free still are. -/
structure Sown (setting : Setting) (document : Document) (free : Nat → Prop) (number : Nat)
    (eager lazy : World) : Prop extends Alongside setting document free eager lazy where
  mini : eager.MiniRegistry setting.registry
  lacks : ∀ other, free other → number ≤ other → eager.Lacks (inFlowDocumentName document other)

namespace Sown

variable {setting : Setting} {document : Document} {free : Nat → Prop} {number : Nat}
  {after lazyAfter : World}

theorem adapters (sown : Sown setting document free number eager lazy) :
    SameAdapters eager lazy := by
  obtain ⟨_, _, rfl⟩ := sown.twins.rest
  exact ⟨rfl, rfl⟩

theorem later (sown : Sown setting document free number eager lazy) (twins : Twins after lazyAfter)
    (unmoved : Unmoved eager after) (lazyUnmoved : Unmoved lazy lazyAfter)
    (adapters : SameAdapters eager after) : Sown setting document free number after lazyAfter where
  toAlongside := sown.toAlongside.later twins unmoved lazyUnmoved
  mini := adapters.miniRegistry sown.mini
  lacks other isFree above := (unmoved.dwindles _).lacks (sown.lacks other isFree above)

theorem answering (setting : Setting) (document : Document) (free : Nat → Prop) (number : Nat) :
    Answering (Sown setting document free number) setting.registry fun _ => True where
  adapters := adapters
  sourced sown := by
    obtain ⟨_, _, rfl⟩ := sown.twins.rest
    rfl
  answers sown tag _ := by
    obtain ⟨_, _, rfl⟩ := sown.twins.rest
    rfl
  noteAll texts sown :=
    sown.later (sown.twins.change (World.noteAll · texts) (fun _ _ _ => rfl) (fun _ => rfl)
      fun _ => rfl) (.of_eq rfl rfl rfl rfl) (.of_eq rfl rfl rfl rfl) ⟨rfl, rfl⟩

theorem plantInFlow (sown : Sown setting document free number eager lazy) (isFree : free number)
    (text tag : String) (executable : ExecutableId) :
    Sown setting document free (number + 1)
      ((DocumentHost.plantInFlow document (inFlowDocumentName document number) text tag
        ((setting.preparing true).options.forIncludes.compileKey, executable)).eval eager).2
      ((DocumentHost.plantInFlow document (inFlowDocumentName document number) text tag
        ((setting.preparing false).options.forIncludes.compileKey, executable)).eval lazy).2 where
  toAlongside :=
    sown.toAlongside.plantInFlow (sown.lacks number isFree (Nat.le_refl _)) text tag executable
  mini := (SameAdapters.heedless.plantInFlow document _ text tag _ eager).miniRegistry sown.mini
  lacks other otherFree above := by
    have differs : inFlowDocumentName document other ≠ inFlowDocumentName document number :=
      fun same => Nat.ne_of_gt above (inFlowDocumentName_injective document same)
    exact (Dwindling.plantInFlow document text tag _ differs eager).lacks
      (sown.lacks other otherFree (Nat.le_of_succ_le above))

/-- In-flow code gets one executable in both, and a descriptor under its name. -/
theorem seedInFlow (sown : Sown setting document free number eager lazy) (isFree : free number)
    (text tag : String)
    (seeds : ((DocumentHost.seedInFlow (setting.preparing true) document
      (inFlowDocumentName document number) text tag).eval eager).1 = .ok ())
    (lazySeeds : ((DocumentHost.seedInFlow (setting.preparing false) document
      (inFlowDocumentName document number) text tag).eval lazy).1 = .ok ()) :
    Sown setting document free (number + 1)
      ((DocumentHost.seedInFlow (setting.preparing true) document
        (inFlowDocumentName document number) text tag).eval eager).2
      ((DocumentHost.seedInFlow (setting.preparing false) document
        (inFlowDocumentName document number) text tag).eval lazy).2 := by
  let code : InFlowCode := ⟨number, tag, text⟩
  have lazyMini : lazy.MiniRegistry setting.registry := sown.adapters.miniRegistry sown.mini
  obtain ⟨adapter, found, eagerly⟩ := eval_seedInFlow_of_ok sown.mini code seeds
  obtain ⟨lazyAdapter, lazyFound, lazily⟩ :=
    eval_seedInFlow_of_ok lazyMini code lazySeeds
  obtain rfl : adapter = lazyAdapter := by
    have answers := (answering setting document free number).answers sown tag trivial
    exact Option.some.inj (found.symm.trans (answers.trans lazyFound))
  have inFlowSetting : ((setting.preparing true).forInFlow code.language).preparing false =
      (setting.preparing false).forInFlow code.language := rfl
  obtain ⟨same, twins⟩ := sown.twins.withExecutable
    ((setting.preparing true).forInFlow code.language) false (code.within document)
    (code.segments document adapter)
  rw [inFlowSetting] at same twins
  have made := sown.later twins (.withExecutable ..) (.withExecutable ..) ⟨rfl, rfl⟩
  have planted := made.plantInFlow isFree text tag (eager.withExecutable
    ((setting.preparing true).forInFlow code.language) (code.within document)
    (code.segments document adapter)).1
  dsimp only at eagerly lazily
  rw [same] at lazily
  exact (congrArg₂ (Sown setting document free (number + 1)) (congrArg Prod.snd eagerly)
    (congrArg Prod.snd lazily)).mpr planted

/-- The document can be compiled in both side by side. -/
theorem sowing (setting : Setting) (document : Document) (free : Nat → Prop) :
    Sowing (Sown setting document free) free setting document where
  answering := answering setting document free
  mini := mini
  starts sown := by
    obtain ⟨_, _, rfl⟩ := sown.twins.rest
    rfl
  onward sown := ⟨sown.toAlongside, sown.mini, fun other isFree above =>
    sown.lacks other isFree (Nat.le_of_succ_le above)⟩
  seeds code tag isFree sown seeds lazySeeds := sown.seedInFlow isFree code tag seeds lazySeeds

/-- Where the compilation begins, a number is free if no document stands under its name. -/
theorem of_miniRegistry {world : World} (mini : world.MiniRegistry setting.registry)
    (document : Document) : Sown setting document (world.Free document) 0 world world where
  twins := .refl world
  unfiled _ isFree := isFree.file
  forms _ isFree id member := absurd member (kept?_eq_none_iff.1 isFree.kept id)
  mini := mini
  lacks _ isFree _ := isFree

end Sown

/-- A compilation with checking that succeeds, where the numbers of all in-flow codes are free,
leaves a host that is abreast with the one that
the compilation without leaves. -/
theorem abreast_of_newExecutable {setting : Setting} {document : Document} {world after : World}
    {executable : ExecutableId} (mini : world.MiniRegistry setting.registry)
    (lacks : ∀ code ∈ world.codesAhead (setting.preparing false) document,
      world.Lacks (code.name document))
    (made : (newExecutable (setting.preparing true) document).eval world =
      (.ok executable, after)) :
    ∃ lazyAfter, (newExecutable (setting.preparing false) document).eval world =
        (.ok executable, lazyAfter) ∧
      Abreast setting document (world.Free document) executable after lazyAfter := by
  have sound := sound_of_newExecutable mini made
  obtain ⟨ahead, related⟩ := (Sown.sowing setting document _).documentSegments_ahead
    (Sown.of_miniRegistry mini document) lacks
  rw [newExecutable_eq] at made ⊢
  obtain ⟨segments, between, compiled, makes⟩ := HostM.eval_bind_eq_ok_iff.1 made
  rw [compiled] at ahead related
  obtain ⟨-, lazySucceeded⟩ := ahead.of_ok
  obtain ⟨last, sown⟩ := related segments rfl
  have lazyCompiled : (documentSegments (setting.preparing false) document).eval world =
      (.ok segments, _) := Prod.ext lazySucceeded rfl
  have written := ofText_of_documentSegments
    (show world.MiniRegistry (setting.preparing true).registry from mini) compiled
  have lazyMakes := eval_makeExecutable_preparing written setting false
    ((documentSegments (setting.preparing false) document).eval world).2
  have form := Form.of_makeExecutable makes
  rw [eval_makeExecutable_preparing written setting true, if_pos rfl] at makes
  rw [HostM.eval_bind_of_ok lazyCompiled]
  obtain ⟨same, twins⟩ := sown.twins.withExecutable (setting.preparing true) false document segments
  cases mistake : firstMistake? (segments.filterMap (Segment.fragment? document.name)) with
  | some error =>
      rw [mistake] at makes
      cases makes
  | none =>
      rw [mistake] at makes
      cases makes
      have lazyMade : (makeExecutable (setting.preparing false) document segments).eval
          ((documentSegments (setting.preparing false) document).eval world).2 =
            (.ok (between.withExecutable (setting.preparing true) document segments).1, _) :=
        lazyMakes.trans (Prod.ext (congrArg Except.ok same) rfl)
      exact ⟨_, lazyMade, sown.toAlongside.later twins (.withExecutable ..) (.withExecutable ..),
        form.known, form.setting, (Form.of_makeExecutable lazyMade).setting, sound⟩

end DocumentHost
