import DocumentHost.Proofs.Descriptor.OnePerName
import DocumentHost.Proofs.Host.SideBySide

/-!
# Whoever compiles first

The compiled form of a document is made by whoever asks for it first, and kept.  It is made
with the adapters of the host and with its answers; a context has a say in them only if what
ran last in it sways something that the document asks for.  Otherwise the form that is kept
is the one that would be made in any other context, and outside of any.
-/

namespace DocumentHost

open World

namespace World

variable {setting : Setting}

/-- An executable that is created while the slot is empty has been compiled from the document,
unless one of its in-flow documents is the document itself. -/
theorem Tended.made_of_created {world fetched after : World} (tended : Tended [] world)
    {name : String} {id : DescriptorId} {executable : ExecutableId}
    (isFetched : (fetchDocument name).eval world = (.ok id, fetched))
    (created : (obtainExecutable setting name).eval world = (.ok executable, after))
    (empty : fetched.slot? id setting.options.compileKey = none)
    (apart : ∀ number, inFlowDocumentName (fetched.documentOf id) number ≠ name) :
    ∃ made, (newExecutable setting (fetched.documentOf id)).eval fetched = (.ok executable, made) ∧
      after = (made.fillSlot id setting.options.compileKey executable).2 := by
  obtain ⟨sourced, source⟩ := sourced_of_obtainExecutable created
  obtain ⟨tends, isKept⟩ : Tends (fun _ => True) world [] _ ∧ _ := tended.fetch name
  rw [isFetched] at tends isKept
  obtain ⟨-, newly⟩ := isKept
  have slot : (fetched.descriptors.get id).slots.get? setting.options.compileKey = none := empty
  rw [eval_obtainExecutable_of_fetched sourced source isFetched, slot] at created
  have compiles := tends.tended.compile setting (fetched.documentOf id) newly.known
  rcases made : (newExecutable setting (fetched.documentOf id)).eval fetched with
    ⟨error | new, behind⟩
  · rw [made] at created
    cases created
  · rw [made] at created compiles
    have same := compiles.continues.others id newly.known (by
      rintro ⟨number, isInFlow⟩
      exact apart number (isInFlow.symm.trans newly.named))
    have vacant : (behind.descriptors.get id).slots.get? setting.options.compileKey = none := by
      rw [same]
      exact slot
    have filled : (behind.fillSlot id setting.options.compileKey new).1 = new := by
      rw [World.fillSlot, vacant]
    cases created
    rw [filled]
    exact ⟨behind, rfl, rfl⟩

end World

/-- Take a state that has come about from an unused source, and one that differs from it in
its surroundings only: in which context is current, in which adapter that one used last, in
what is held and how deep includes are nested.  If in neither what ran last sways anything that
the document asks for, a creation ends alike in both, with the same executable or error, and
what has been compiled and kept is the same afterwards.  If this creation compiles the document,
then from then on the executable has the segments that the creation in the other surroundings
gives; a later creation with the same key gives this executable as long as the descriptor is not
marked; and with the same adapters these are the segments of a new compilation of the document
outside of any execution. -/
theorem created_alike_in_all_contexts {allowed : Bond → Prop} {origin world other : World}
    (unused : origin.Unused) (run : ActsOn allowed origin world) (same : SameStore world other)
    {setting : Setting} {name : String}
    (unswayed : ∀ id fetched, (fetchDocument name).eval world = (.ok id, fetched) →
      world.Unswayed setting (fetched.documentOf id) ∧
        other.Unswayed setting (fetched.documentOf id)) :
    ((obtainExecutable setting name).eval world).1 =
        ((obtainExecutable setting name).eval other).1 ∧
      SameStore ((obtainExecutable setting name).eval world).2
        ((obtainExecutable setting name).eval other).2 ∧
      ∀ id fetched first after, (fetchDocument name).eval world = (.ok id, fetched) →
        fetched.slot? id setting.options.compileKey = none →
        (∀ number, inFlowDocumentName (fetched.documentOf id) number ≠ name) →
        (obtainExecutable setting name).eval world = (.ok first, after) →
        after.slot? id setting.options.compileKey = some first ∧
        ∀ later, Proceeds allowed after later →
          (later.executables.get first).segments =
            (((obtainExecutable setting name).eval other).2.executables.get first).segments ∧
          (∀ otherSetting second behind,
            setting.options.compileKey = otherSetting.options.compileKey →
            (obtainExecutable otherSetting name).eval later = (.ok second, behind) →
            (((fetchDocument name).eval later).2.descriptors.get id).invalidated = false →
              second = first ∧ (behind.executables.get second).segments =
                (later.executables.get first).segments) ∧
          (SameAdapters after later →
            ∃ fresh made,
              (newExecutable setting (fetched.documentOf id)).eval later.outside =
                (.ok fresh, made) ∧
              (made.executables.get fresh).segments = (later.executables.get first).segments) := by
  have tended : Tended [] world := (unused.tended.changes run.changes).tended
  obtain ⟨sameOutcome, behind⟩ := SideBySide.obtainExecutable same unswayed
  refine ⟨sameOutcome, behind.sameStore, ?_⟩
  intro id fetched first after isFetched empty apart created
  obtain ⟨made, compiled, rfl⟩ := tended.made_of_created isFetched created empty apart
  obtain ⟨_, _, fetchedAgain, -, -, tends, slot⟩ := tended.create created
  rw [isFetched] at fetchedAgain
  cases fetchedAgain
  refine ⟨slot, fun later onward => ?_⟩
  obtain ⟨segments, form⟩ := Form.of_newExecutable compiled
  have fills := Bookkeeping.fillSlot id setting.options.compileKey first
  have keptForm := form.later (.of_executables (fills.executables made))
  have laterForm := keptForm.later onward.programs
  refine ⟨?_, ?_, ?_⟩
  · have there := behind.sameStore
    rw [created] at there
    rw [there, laterForm.segments]
    exact keptForm.segments.symm
  · intro otherSetting second behindLater sameKey createdLater unmarked
    obtain rfl := tended.created_again sameKey isFetched created onward.changes createdLater unmarked
    have programs := (SamePrograms.heedless.executing.obtains otherSetting name).leads createdLater
    exact ⟨rfl, (laterForm.later programs).segments.trans laterForm.segments.symm⟩
  · intro adapters
    have sourcedLater := (tended.created created onward.changes).tended.sourced
    have fetches : SameTongue world fetched := by
      have tongue := SameTongue.of_agree ((SideBySide.sourcing world world).fetchDocument_agree name)
      rwa [isFetched] at tongue
    have sinceFetch : SameAdapters fetched later.outside := by
      have obtains := (SameAdapters.heedless.executing.obtains setting name).leads created
      exact (fetches.adapters.symm.trans obtains).trans adapters
    have sourced : later.outside.source.isNone = fetched.source.isNone := by
      rw [fetches.sourced, Option.isNone_eq_false_iff.2 tended.sourced]
      exact Option.isNone_eq_false_iff.2 sourcedLater
    have outside : later.outside.Unswayed setting (fetched.documentOf id) :=
      unswayed_of_current rfl setting _
    obtain ⟨fresh, freshMade, isFresh, sameSegments⟩ := newExecutable_alike sinceFetch sourced
      (fetches.unswayed (unswayed id fetched isFetched).1) outside compiled
    refine ⟨fresh, freshMade, isFresh, sameSegments.trans ?_⟩
    exact form.segments.trans laterForm.segments.symm

section Sharing

/-- Two adapters share the tag `t`, and only the second one has the tag `b`. -/
def swayableStart : World where
  toLanguages := .of
    [⟨Mini.adapter (.ofTag "A" "t"), true⟩,
      ⟨Mini.adapter { name := "B", languageName := "B", tags := ["b", "t"] }, true⟩]
    [[⟨0⟩, ⟨1⟩]]
  source := some (.inMemory "m")
  sinks := ⟨[{}, {}]⟩

/-- A page in `t` is included by a main document in `b`. -/
def swayableHost : World :=
  ((putDocument "main" "<% include \"page\"; %>" "" : HostM Empty _).eval
    ((putDocument "page" "<%t print 1;%>" "" : HostM Empty _).eval swayableStart).2).2

def swayableSetting : Setting where
  registry := ⟨0⟩
  sourced := true
  options := { parser := scriptletsParser, defaultTag := some "b" }

/-- The host while a context is current in which an adapter has run. -/
def swayableAfter (adapter : AdapterId) : World :=
  { swayableHost with
    contexts := ⟨[{ adapters := [adapter], lastAdapter := some adapter }]⟩
    current := some ⟨0⟩ }

/-- The main document has been executed, and with it the page. -/
def swayableRun : World :=
  ((execute ⟨0⟩ ⟨0⟩).eval
    ((newContext ⟨0⟩ ⟨1⟩ : HostM Empty ContextId).eval
      ((obtainExecutable swayableSetting "main").eval swayableHost).2).2).2

/-- The adapters of the programs that a document is compiled to. -/
def adaptersCompiledFor (setting : Setting) (name : String) (world : World) :
    List AdapterId :=
  match (obtainExecutable setting name).eval world with
  | (.ok executable, after) => (after.executables.get executable).segments.filterMap fun segment =>
      match segment with
      | .program _ _ _ adapter _ => some adapter
      | .literal _ _ => none
  | (.error _, _) => []

theorem unswayed_swayableAfter (document : Document) :
    (swayableAfter ⟨0⟩).Unswayed swayableSetting document := by
  refine ⟨fun _ chosen => absurd chosen (by decide), fun tag _ => ?_⟩
  rintro ⟨last, used, -, member, other⟩
  obtain rfl : ⟨0⟩ = last := Option.some.inj used
  obtain ⟨-, declares⟩ := mem_declaring member
  obtain rfl : tag = "t" := List.mem_singleton.1 declares
  exact other (by decide +kernel)

theorem created_alike_in_all_contexts_unswayed :
    (swayableStart.Unused ∧ SameStore (swayableAfter ⟨0⟩) swayableHost) ∧
    ((obtainExecutable swayableSetting "page").eval (swayableAfter ⟨0⟩)).1 = .ok ⟨0⟩ ∧
      ((obtainExecutable swayableSetting "page").eval swayableHost).1 = .ok ⟨0⟩ ∧
      (((obtainExecutable swayableSetting "page").eval (swayableAfter ⟨0⟩)).2.executables.get
          ⟨0⟩).segments =
        (((obtainExecutable swayableSetting "page").eval swayableHost).2.executables.get
          ⟨0⟩).segments ∧
      adaptersCompiledFor swayableSetting "page" (swayableAfter ⟨0⟩) = [⟨0⟩] := by
  obtain ⟨isFetched, empty, created, adapters⟩ :
      ((fetchDocument "page").eval (swayableAfter ⟨0⟩)).1 = .ok ⟨0⟩ ∧
      ((fetchDocument "page").eval (swayableAfter ⟨0⟩)).2.slot? ⟨0⟩
        swayableSetting.options.compileKey = none ∧
      ((obtainExecutable swayableSetting "page").eval (swayableAfter ⟨0⟩)).1 = .ok ⟨0⟩ ∧
      adaptersCompiledFor swayableSetting "page" (swayableAfter ⟨0⟩) = [⟨0⟩] := by decide +kernel
  have unused : swayableStart.Unused := ⟨rfl, rfl, rfl⟩
  have puts : ActsOn (fun _ => False) swayableStart swayableHost :=
    .tail (.single (.put "page" "<%t print 1;%>" "")) (.put "main" "<% include \"page\"; %>" "")
  have run : ActsOn (fun _ => False) swayableStart (swayableAfter ⟨0⟩) :=
    (puts.tail (.aside (.addContext swayableHost rfl))).tail (.aside (.of_eq rfl rfl rfl rfl))
  have same : SameStore (swayableAfter ⟨0⟩) swayableHost := rfl
  have unswayed (id : DescriptorId) (fetched : World)
      (_ : (fetchDocument "page").eval (swayableAfter ⟨0⟩) = (.ok id, fetched)) :
      (swayableAfter ⟨0⟩).Unswayed swayableSetting (fetched.documentOf id) ∧
        swayableHost.Unswayed swayableSetting (fetched.documentOf id) :=
    ⟨unswayed_swayableAfter _, unswayed_of_current rfl swayableSetting _⟩
  obtain ⟨sameOutcome, -, first⟩ := created_alike_in_all_contexts unused run same unswayed
  obtain ⟨-, onward⟩ := first ⟨0⟩ _ ⟨0⟩ _ (Prod.fst_eq_iff.1 isFetched) empty
    (fun number => inFlowDocumentName_ne _ number (by decide)) (Prod.fst_eq_iff.1 created)
  obtain ⟨sameSegments, -⟩ := onward _ ((Proceeds.lasting _).refl _)
  exact ⟨⟨unused, same⟩, created, sameOutcome.symm.trans created, sameSegments, adapters⟩

/-- What ran last makes a difference: a page is compiled for the second adapter while that one
has run last, and for the first one outside of any execution.  So it is when the main document
includes the page, and what was compiled then is what is created afterwards. -/
theorem page_compiled_for_what_ran_last :
    SameStore (swayableAfter ⟨1⟩) swayableHost ∧
      adaptersCompiledFor swayableSetting "page" (swayableAfter ⟨1⟩) = [⟨1⟩] ∧
      adaptersCompiledFor swayableSetting "page" swayableHost = [⟨0⟩] ∧
      swayableRun.current = none ∧
      adaptersCompiledFor swayableSetting "page" swayableRun = [⟨1⟩] := by
  refine ⟨rfl, ?_⟩
  decide +kernel

end Sharing

end DocumentHost
