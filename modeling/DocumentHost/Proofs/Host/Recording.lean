import DocumentHost.Language.Echo
import DocumentHost.Mini.Language
import DocumentHost.Proofs.Descriptor.OnePerName
import DocumentHost.Proofs.Host.Obtaining

/-!
# Includes are recorded

Before an included document is run, its descriptor is added to the dependencies of the document
that includes it.  Both descriptors are looked up by name once more, so the one that is recorded
is the one that is run only if the source still has it.  A dependency that has been recorded
stays, and it stands there once, however often the document is included; and as soon as it is
broken, everything that reaches it is found invalid.
-/

namespace DocumentHost

open World

namespace World

/-! ## Dependencies stay -/

/-- Dependencies are added, none is taken away, and none is added twice. -/
structure Remembers (world after : World) : Prop where
  stays : ∀ id dependency, world.DependsOn id dependency → after.DependsOn id dependency
  distinct : (∀ id, (world.descriptors.get id).dependencies.Nodup) →
    ∀ id, (after.descriptors.get id).dependencies.Nodup

namespace Remembers

variable {world after : World}

theorem lasting : Lasting Remembers where
  refl _ := ⟨fun _ _ depends => depends, fun distinct => distinct⟩
  trans first second :=
    ⟨fun id dependency depends => second.stays id dependency (first.stays id dependency depends),
      fun distinct => second.distinct (first.distinct distinct)⟩

theorem of_dependencies (same : ∀ id, (after.descriptors.get id).dependencies =
    (world.descriptors.get id).dependencies) : Remembers world after := by
  refine ⟨fun id dependency depends => ?_, fun distinct id => ?_⟩
  · rwa [DependsOn, same]
  · rw [same]
    exact distinct id

theorem of_descriptors (descriptors : after.descriptors = world.descriptors) :
    Remembers world after :=
  of_dependencies fun id => by rw [descriptors]

theorem modifyDescriptor (world : World) (id : DescriptorId) {change : Descriptor → Descriptor}
    (same : ∀ descriptor, (change descriptor).dependencies = descriptor.dependencies) :
    Remembers world (world.modifyDescriptor id change) :=
  of_dependencies (Arena.map_get_modify Descriptor.dependencies world.descriptors id (same _))

theorem tolerant : Tolerant Remembers :=
  .of_asides lasting fun aside => of_descriptors aside.descriptors

theorem addDescriptor (world : World) {name : String} {descriptor : Descriptor}
    (fresh : descriptor.Fresh name) : Remembers world (world.addDescriptor descriptor).2 :=
  of_dependencies (Arena.map_get_add Descriptor.dependencies world.descriptors fresh.dependencies)

theorem ticks (world : World) : Remembers world world.tick :=
  of_descriptors rfl

theorem storing : Storing Remembers where
  lasting := lasting
  checked checked := of_dependencies fun id => by
    obtain ⟨_, _, _, same⟩ := checked.same id
    rw [same]
  make name partition tag text world := by
    have made : Remembers world (world.tick.addDescriptor _).2 :=
      lasting.trans (ticks world)
        (addDescriptor _ (Descriptor.fresh_ofText name partition tag text world.clock))
    exact made
  fill world id key executable := of_dependencies fun other => by
    obtain ⟨_, same, -⟩ := get_fillSlot world id key executable other
    rw [same]
  documents _ _ := of_descriptors rfl
  release world := of_descriptors (descriptors_releaseUnheld world)

theorem readDocument (settings : FileSettings) (name : String) :
    (readDocument settings name).Keeps Remembers := by
  intro world
  rw [HostM.KeepsFrom]
  rcases eval_readDocument settings name world with
    ⟨error, failed⟩ | ⟨path, modified, text, -, -, -, read⟩
  · rw [failed]
    exact lasting.refl world
  · rw [read]
    have made : Remembers world (world.tick.addDescriptor _).2 :=
      lasting.trans (ticks world)
        (addDescriptor _ (world.fresh_fileDescriptor settings name path modified text))
    exact made

theorem fetchDocument (name : String) : (fetchDocument name).Keeps Remembers :=
  storing.fetchDocument fun settings => readDocument settings name

theorem linkDependent (world : World) (id dependent : DescriptorId) :
    Remembers world (world.linkDependent id dependent) := by
  obtain ⟨-, -, same⟩ := get_linkDependent world id dependent
  refine of_dependencies fun other => ?_
  obtain ⟨_, _, changed⟩ := same other
  rw [changed]

/-- A dependency that is there already is not added again. -/
theorem linkDependency (world : World) (id dependency : DescriptorId) :
    Remembers world (world.linkDependency id dependency) := by
  have changed (other : DescriptorId) :
      ((world.linkDependency id dependency).descriptors.get other).dependencies =
          (world.descriptors.get other).dependencies ∨
        dependency ∉ (world.descriptors.get other).dependencies ∧
          ((world.linkDependency id dependency).descriptors.get other).dependencies =
            (world.descriptors.get other).dependencies ++ [dependency] := by
    rw [World.linkDependency, World.modifyDescriptor, Arena.get_modify]
    split
    · rename_i here
      rw [here.1]
      split
      · exact .inl rfl
      · rename_i missing
        exact .inr ⟨missing, rfl⟩
    · exact .inl rfl
  refine ⟨fun other present depends => ?_, fun distinct other => ?_⟩
  · rcases changed other with same | ⟨-, added⟩
    · rwa [DependsOn, same]
    · rw [DependsOn, added]
      exact List.mem_append_left _ depends
  · rcases changed other with same | ⟨missing, added⟩
    · rw [same]
      exact distinct other
    · rw [added]
      exact (distinct other).append (List.nodup_singleton _) (List.disjoint_singleton.2 missing)

theorem change {allowed : Bond → Prop} (change : Change allowed world after) :
    Remembers world after := by
  cases change with
  | aside aside => exact of_descriptors aside.descriptors
  | fetch name => exact fetchDocument name world
  | plant document name code tag form =>
      exact storing.plantInFlow tolerant fetchDocument linkDependent document name code tag form
        world
  | put name text tag => exact storing.putDocument name text tag world
  | seed name text tag form => exact storing.seedDocument name text tag form world
  | check id => exact storing.isValid id world
  | invalidate id => exact storing.checked (.invalidate world id)
  | fill id key executable => exact storing.fill world id key executable
  | depend id dependency => exact linkDependency world id dependency
  | reclaim =>
      exact lasting.reclaim (fun state id => modifyDescriptor state id fun _ => rfl)
        storing.release world
  | bind bond known free unbound permitted => exact of_descriptors rfl
  | unbind executable key => exact of_descriptors rfl

/-- By induction on the chain. -/
theorem changes {allowed : Bond → Prop} (changes : Changes allowed world after) :
    Remembers world after := by
  induction changes with
  | refl => exact lasting.refl world
  | tail _ step ih => exact lasting.trans ih (change step)

end Remembers

/-- No descriptor has a dependency twice. -/
theorem nodup_dependencies {allowed : Bond → Prop} {origin world : World} (unused : origin.Unused)
    (changes : Changes allowed origin world) (id : DescriptorId) :
    (world.descriptors.get id).dependencies.Nodup := by
  refine (Remembers.changes changes).distinct (fun id => ?_) id
  have unknown : ¬id.index < origin.descriptors.size := by
    rw [unused.descriptors]
    exact Nat.not_lt_zero _
  rw [Arena.get_of_unknown _ unknown]
  exact .nil

/-- What is recorded is there. -/
theorem dependsOn_linkDependency {world : World} {id : DescriptorId}
    (known : id.index < world.descriptors.size) (dependency : DescriptorId) :
    (world.linkDependency id dependency).DependsOn id dependency := by
  rw [DependsOn, World.linkDependency, World.modifyDescriptor, Arena.get_modify_self _ _ known]
  split
  · assumption
  · exact List.mem_append_right _ (List.mem_singleton_self _)

end World

/-! ## Broken dependencies -/

/-- As many descriptors as a source may keep leave room for no chain that is too long; so a
descriptor that reaches one that is not sound is found invalid. -/
theorem World.Tended.isValid_of_reaches {world : World} (tended : Tended [] world)
    (few : world.documentEntries.length ≤ dependencyLimit) {first reached : DescriptorId}
    (held : (world.descriptors.get first).dropped = false) (reaches : world.Reaches first reached)
    (unsound : ¬world.SoundAt world.clock reached) :
    ((isValid first).eval world).1 = .ok false := by
  rcases checked : (isValid first).eval world with ⟨error | valid, after⟩
  · obtain ⟨chain, long, distinct, linking⟩ := exists_chain_of_isValid held checked
    have short := tended.length_le_of_linking distinct linking
    exact absurd (Nat.lt_of_lt_of_le long (short.trans few)) (Nat.lt_irrefl _)
  · cases valid with
    | false => rfl
    | true => exact absurd (soundAt_of_reaches held checked reaches) unsound

/-! ## The moment of an include -/

/-- The source is named as before. -/
def World.SameIdentifier (world after : World) : Prop :=
  after.sourceIdentifier = world.sourceIdentifier

namespace World.SameIdentifier

variable {world after : World}

theorem of_source (source : after.source = world.source) : SameIdentifier world after := by
  rw [SameIdentifier, sourceIdentifier, source, sourceIdentifier]

theorem lasting : Lasting SameIdentifier where
  refl _ := rfl
  trans first second := second.trans first

theorem tolerant : Tolerant SameIdentifier :=
  .of_asides lasting fun aside => of_source aside.source

theorem documenting : Documenting SameIdentifier where
  lasting := lasting
  checked checked := of_source checked.source
  add _ _ _ := of_source rfl
  fill world id key executable := of_source (source_fillSlot world id key executable)
  documents world change := by
    rw [SameIdentifier, sourceIdentifier, sourceIdentifier, modifyDocuments]
    cases world.source <;> rfl
  release world := of_source (Aside.releaseUnheld world).source

theorem executing : Executing SameIdentifier :=
  .of_documenting tolerant documenting
    (fun world id dependent => of_source (get_linkDependent world id dependent).1)
    fun _ _ _ => of_source rfl

end World.SameIdentifier

/-- Both descriptors are looked up by name. -/
theorem eval_recordDependency_of_fetched {document : Executable} {name : String}
    {world served between : World} {includer included : DescriptorId}
    (partition : document.partition = world.sourceIdentifier)
    (first : (fetchDocument document.documentName).eval world = (.ok includer, served))
    (second : (fetchDocument name).eval served = (.ok included, between)) :
    (recordDependency document name).eval world =
      (.ok (), between.linkDependency includer included) := by
  rw [recordDependency, HostM.eval_bind_of_ok (HostM.eval_get _), if_pos partition,
    HostM.eval_bind_of_ok (HostM.eval_attempt _ _), first]
  dsimp only
  rw [HostM.eval_bind_of_ok (HostM.eval_attempt _ _), second]
  rfl

/-- An include that gets past compilation records the descriptor that is run, provided that the
source then serves the name of the including document and still serves that descriptor.  Later on
the descriptor that was served for the including document has it among its dependencies, once,
and is the one under its name until it is marked; and as soon as the descriptor that was run is
not sound, everything that reaches the including document is found invalid. -/
theorem include_recorded {allowed : Bond → Prop} {origin world obtained : World}
    (unused : origin.Unused) (changes : Changes allowed origin world) (levels : Nat)
    {executable included : ExecutableId} {name : String} (context : ContextId)
    (shallow : world.includeDepth < includeLimit)
    (sourced : (world.executables.get executable).setting.sourced = true)
    (partition : (world.executables.get executable).partition = world.sourceIdentifier)
    (creates : (obtainExecutable { (world.executables.get executable).setting with
      options := (world.executables.get executable).setting.options.forIncludes } name).eval
        { world with includeDepth := world.includeDepth + 1 } = (.ok included, obtained)) :
    ∃ id, (obtained.descriptors.get id).name = name ∧
      obtained.slot? id
        (world.executables.get executable).setting.options.forIncludes.compileKey =
          some included ∧
      ∀ includer served between,
        (fetchDocument (world.executables.get executable).documentName).eval
          (obtained.holdingMore { executables := [included] }) = (.ok includer, served) →
        (fetchDocument name).eval served = (.ok id, between) →
        Changes allowed (between.linkDependency includer id)
            ((includeWithin (levels + 1) executable name context).eval world).2 ∧
          ∀ later, Changes allowed (between.linkDependency includer id) later →
            (later.descriptors.get includer).dependencies.count id = 1 ∧
            ((later.descriptors.get includer).invalidated = false →
              later.kept? (world.executables.get executable).documentName = some includer) ∧
            (later.documentEntries.length ≤ dependencyLimit → ¬later.SoundAt later.clock id →
              ∀ first, (later.descriptors.get first).dropped = false →
                later.Reaches first includer → ((isValid first).eval later).1 = .ok false) := by
  have executing : Executing (Changes allowed) := Changes.executing
  have aside {before after : World} (same : World.Aside before after) :
      Changes allowed before after := .single (.aside same)
  have tendedAt {state : World} (upTo : Changes allowed world state) : Tended [] state :=
    (unused.tended.changes (changes.trans upTo)).tended
  have deepens : Changes allowed world { world with includeDepth := world.includeDepth + 1 } :=
    aside (.of_eq rfl rfl rfl rfl)
  obtain ⟨id, found, -, -, newly, tends, slot⟩ := (tendedAt deepens).create creates
  have source : world.source.isNone = false := by
    rw [← Option.not_isSome, (tendedAt .refl).sourced]
    rfl
  refine ⟨id, (tends.continues.names id newly.known).trans newly.named, slot,
    fun includer served between servesIncluder servesIncluded => ?_⟩
  have holds : Changes allowed obtained
      (obtained.holdingMore { executables := [included] }) := aside (.of_eq rfl rfl rfl rfl)
  have toHeld := (deepens.trans ((executing.obtains _ name).leads creates)).trans holds
  have toServed := toHeld.trans ((executing.fetch _).leads servesIncluder)
  have fetches : Changes allowed served between := (executing.fetch name).leads servesIncluded
  have toRecorded : Changes allowed world (between.linkDependency includer id) :=
    (toServed.trans fetches).tail (.depend includer id)
  obtain ⟨-, isKept⟩ : Tends (fun _ => True) _ [] _ ∧ _ := (tendedAt toHeld).fetch
    (world.executables.get executable).documentName
  rw [servesIncluder] at isKept
  refine ⟨?_, fun later onward => ?_⟩
  · have identifier : SameIdentifier { world with includeDepth := world.includeDepth + 1 }
        obtained := (SameIdentifier.executing.obtains _ name).leads creates
    have isPartition : (world.executables.get executable).partition =
        (obtained.holdingMore { executables := [included] }).sourceIdentifier :=
      partition.trans identifier.symm
    have records := eval_recordDependency_of_fetched isPartition servesIncluder servesIncluded
    have runs : (executeWith (fun executable context program =>
          runScript (serveRequest (includeWithin levels) executable context) program.run)
          included context none none).Keeps (Changes allowed) := by
      refine executing.tolerant.executeWith (fun program => ?_) none fun _ chosen => ?_
      · exact executing.tolerant.runScript (executing.tolerant.serveRequest fun name =>
          executing.includeWithin levels included name context) program.run
      · cases chosen
    rw [eval_includeWithin shallow sourced source creates, HostM.eval_keeping,
      HostM.eval_bind_of_ok records]
    rcases executed : (executeWith (fun executable context program =>
      runScript (serveRequest (includeWithin levels) executable context) program.run)
      included context none none).eval (between.linkDependency includer id) with
      ⟨outcome, behind⟩
    have letsGo : Changes allowed behind { behind with holdings := obtained.holdings } :=
      aside (.of_eq rfl rfl rfl rfl)
    exact (((runs.leads executed).trans letsGo).trans (executing.tolerant.releaseUnheld _)).trans
      (aside (.of_eq rfl rfl rfl rfl))
  · have tendsFetch := (tendedAt toServed).changes fetches
    have tendsLater := (tendedAt toServed).changes (fetches.trans (.head (.depend includer id)
      onward))
    have known := isKept.2.known
    have depends : later.DependsOn includer id :=
      (Remembers.changes onward).stays _ _ (dependsOn_linkDependency
        (Nat.lt_of_lt_of_le known tendsFetch.continues.progress.size) id)
    have distinct := nodup_dependencies unused ((changes.trans toRecorded).trans onward) includer
    refine ⟨List.count_eq_one_of_mem distinct depends, fun unmarked => ?_,
      fun few unsound first held reaches => ?_⟩
    · have named := (tendsLater.continues.names includer known).trans isKept.2.named
      have stands := tendsLater.tended.kept includer
        (Nat.lt_of_lt_of_le known tendsLater.continues.progress.size) unmarked
      rw [← named]
      exact stands.resolve_right List.not_mem_nil
    · exact tendsLater.tended.isValid_of_reaches few held (reaches.tail depends) unsound

section Including

/-- A host that keeps in memory a page and a part that the page includes. -/
def includingHost : World :=
  ((putDocument "page" "<% include \"part\"; %>" "" : HostM Empty _).eval
    ((putDocument "part" "one" "" : HostM Empty _).eval
      { toLanguages := .of [⟨Mini.adapter (.ofTag "Mini" "mini"), true⟩] [[⟨0⟩]]
        source := some (.inMemory "m")
        sinks := ⟨[{}, {}]⟩ }).2).2

def includingSetting : Setting where
  registry := ⟨0⟩
  sourced := true
  options := { parser := scriptletsParser, defaultTag := some "mini" }

/-- The page has been compiled, and there is a context to run it in. -/
def includingReady : World :=
  ((newContext ⟨0⟩ ⟨1⟩ : HostM Empty ContextId).eval
    ((obtainExecutable includingSetting "page").eval includingHost).2).2

/-- The part has been compiled to be included. -/
def includingObtained : World :=
  ((obtainExecutable { includingSetting with options := includingSetting.options.forIncludes }
    "part").eval { includingReady with includeDepth := includingReady.includeDepth + 1 }).2

/-- The page has included the part. -/
def includingDone : World :=
  ((includeWithin (includeLimit + 1) ⟨0⟩ "part" ⟨0⟩).eval includingReady).2

/-- Then the part has been replaced. -/
def includingReplaced : World :=
  ((putDocument "part" "two" "" : HostM Empty _).eval includingDone).2

theorem changes_includingReady :
    Changes (fun _ => False)
      { toLanguages := .of [⟨Mini.adapter (.ofTag "Mini" "mini"), true⟩] [[⟨0⟩]]
        source := some (.inMemory "m")
        sinks := ⟨[{}, {}]⟩ } includingReady := by
  have puts : Changes (fun _ => False) _ includingHost :=
    .tail (.single (.put "part" "one" "")) (.put "page" "<% include \"part\"; %>" "")
  have compiles : Changes (fun _ => False) includingHost
      ((obtainExecutable includingSetting "page").eval includingHost).2 :=
    Changes.executing.obtains includingSetting "page" includingHost
  exact (puts.trans compiles).tail (.aside (.addContext _ rfl))

theorem includingReady_setting :
    (includingReady.executables.get ⟨0⟩).setting = includingSetting := by
  obtain ⟨registry, sourced, options⟩ :
      (includingReady.executables.get ⟨0⟩).setting.registry = includingSetting.registry ∧
        (includingReady.executables.get ⟨0⟩).setting.sourced = includingSetting.sourced ∧
        (includingReady.executables.get ⟨0⟩).setting.options = includingSetting.options := by
    decide +kernel
  rcases found : (includingReady.executables.get ⟨0⟩).setting with ⟨_, _, _⟩
  rw [found] at registry sourced options
  subst registry sourced options
  rfl

/-- The part is the only descriptor of its name. -/
theorem eq_of_name_includingObtained {id : DescriptorId}
    (named : (includingObtained.descriptors.get id).name = "part") : id = ⟨0⟩ := by
  obtain ⟨size, second⟩ : includingObtained.descriptors.size = 2 ∧
      (includingObtained.descriptors.get ⟨1⟩).name ≠ "part" := by decide +kernel
  obtain ⟨place⟩ := id
  match place with
  | 0 => rfl
  | 1 => exact absurd named second
  | more + 2 =>
      have unknown : ¬more + 2 < includingObtained.descriptors.size := by omega
      rw [Arena.get_of_unknown _ unknown] at named
      exact absurd named (by decide)

theorem include_recorded_replaced :
    (includingReady.includeDepth < includeLimit ∧
      (includingReady.executables.get ⟨0⟩).setting.sourced = true ∧
      (includingReady.executables.get ⟨0⟩).partition = includingReady.sourceIdentifier) ∧
    (includingDone.sinks.get ⟨0⟩).text = "one" ∧
    (includingReplaced.descriptors.get ⟨1⟩).dependencies.count ⟨0⟩ = 1 ∧
      ((isValid ⟨1⟩).eval includingReplaced).1 = .ok false := by
  obtain ⟨⟨shallow, sourced, partition, isPage⟩, created, output⟩ :
      (includingReady.includeDepth < includeLimit ∧
        (includingReady.executables.get ⟨0⟩).setting.sourced = true ∧
        (includingReady.executables.get ⟨0⟩).partition = includingReady.sourceIdentifier ∧
        (includingReady.executables.get ⟨0⟩).documentName = "page") ∧
      ((obtainExecutable
        { includingSetting with options := includingSetting.options.forIncludes } "part").eval
          { includingReady with includeDepth := includingReady.includeDepth + 1 }).1 = .ok ⟨1⟩ ∧
      (includingDone.sinks.get ⟨0⟩).text = "one" := by decide +kernel
  obtain ⟨includer, included, unsound, held, few⟩ :
      ((fetchDocument "page").eval
        (includingObtained.holdingMore { executables := [⟨1⟩] })).1 = .ok ⟨1⟩ ∧
      ((fetchDocument "part").eval ((fetchDocument "page").eval
        (includingObtained.holdingMore { executables := [⟨1⟩] })).2).1 = .ok ⟨0⟩ ∧
      (includingReplaced.descriptors.get ⟨0⟩).invalidated = true ∧
      (includingReplaced.descriptors.get ⟨1⟩).dropped = false ∧
      includingReplaced.documentEntries.length ≤ dependencyLimit := by decide +kernel
  have creates : (obtainExecutable { (includingReady.executables.get ⟨0⟩).setting with
      options := (includingReady.executables.get ⟨0⟩).setting.options.forIncludes } "part").eval
        { includingReady with includeDepth := includingReady.includeDepth + 1 } =
      (.ok ⟨1⟩, includingObtained) := by
    rw [includingReady_setting]
    exact Prod.fst_eq_iff.1 created
  obtain ⟨id, named, -, recorded⟩ := include_recorded ⟨rfl, rfl, rfl⟩ changes_includingReady
    includeLimit ⟨0⟩ shallow sourced partition creates
  obtain rfl := eq_of_name_includingObtained named
  obtain ⟨done, onward⟩ := recorded ⟨1⟩ _ _ (by rw [isPage]; exact Prod.fst_eq_iff.1 includer)
    (Prod.fst_eq_iff.1 included)
  obtain ⟨once, -, invalid⟩ := onward includingReplaced (done.tail (.put "part" "two" ""))
  exact ⟨⟨shallow, sourced, partition⟩, output, once,
    invalid few (fun sound => absurd sound.unmarked (by rw [unsound]; nofun)) ⟨1⟩ held .refl⟩

/-- A host that keeps in memory a document with in-flow code and another one that includes it. -/
def nestedHost : World :=
  ((putDocument "middle" "<% include \"inner\"; %>" "" : HostM Empty _).eval
    ((putDocument "inner" "<%:echo hi%>" "" : HostM Empty _).eval
      { toLanguages := .of
          [⟨Mini.adapter (.ofTag "Mini" "mini"), true⟩,
            ⟨Echo.adapter (.ofTag "Echo" "echo") {}, true⟩]
          [[⟨0⟩, ⟨1⟩]]
        source := some (.inMemory "m")
        sinks := ⟨[{}, {}]⟩ }).2).2

/-- The name that the in-flow code will have. -/
def borrowedName : String :=
  inFlowDocumentName (nestedHost.documentOf ⟨0⟩) 0

/-- An outer document has been compiled under that name, and there is a context to run it in. -/
def borrowedReady : World :=
  ((newContext ⟨0⟩ ⟨1⟩ : HostM Empty ContextId).eval
    ((newExecutable includingSetting
      { name := borrowedName
        partition := "m"
        text := "<% include \"middle\"; %>"
        timestamp := ⟨0⟩ }).eval nestedHost).2).2

def borrowedRun : World :=
  ((execute ⟨0⟩ ⟨0⟩).eval borrowedReady).2

/-- When the outer document includes the middle one, the source has no document of its name, so
nothing is recorded.  The middle document includes the inner one, whose in-flow code then goes
into the source under the name; so in the end the name has a valid descriptor, and the middle
document is not among its dependencies. -/
theorem include_not_recorded_under_borrowed_name :
    ((borrowedReady.executables.get ⟨0⟩).documentName = borrowedName ∧
      (borrowedReady.executables.get ⟨0⟩).partition = borrowedReady.sourceIdentifier) ∧
    (((execute ⟨0⟩ ⟨0⟩).eval borrowedReady).1 = .ok () ∧
      (borrowedRun.sinks.get ⟨0⟩).text = "hi") ∧
    borrowedRun.kept? borrowedName = some ⟨2⟩ ∧ ((isValid ⟨2⟩).eval borrowedRun).1 = .ok true ∧
    borrowedRun.kept? "middle" = some ⟨1⟩ ∧
    (⟨1⟩ : DescriptorId) ∉ (borrowedRun.descriptors.get ⟨2⟩).dependencies := by
  decide +kernel

end Including

end DocumentHost
