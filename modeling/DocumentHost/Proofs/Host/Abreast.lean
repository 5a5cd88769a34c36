import DocumentHost.Proofs.Host.Failing
import DocumentHost.Proofs.Host.Twins

/-!
# Runs abreast

A document stands in two hosts, in one compiled with its programs checked and in the other
without, and its in-flow codes are found in each under the key of that host.  Then a run of the
document that includes nothing but its in-flow codes is the same in both.
-/

namespace DocumentHost

open World

variable {ε α : Type}

/-! ## What leaves documents where they are -/

namespace World

/-- Documents and executables stay what they are, and where no file is found by a name, the
source comes by no document of it. -/
structure Unmoved (world after : World) : Prop where
  grows : Grows world after
  programs : SamePrograms world after
  dwindles : ∀ name, Dwindling name world after

namespace Unmoved

variable {world after : World}

theorem of_eq (executables : after.executables = world.executables)
    (descriptors : after.descriptors = world.descriptors) (source : after.source = world.source)
    (files : after.files = world.files) : Unmoved world after :=
  ⟨.of_descriptors descriptors, .of_executables executables, fun _ => .of_same source files⟩

theorem lasting : Lasting Unmoved where
  refl _ := .of_eq rfl rfl rfl rfl
  trans first second :=
    ⟨Grows.lasting.trans first.grows second.grows,
      SamePrograms.lasting.trans first.programs second.programs, fun name =>
      Dwindling.lasting.trans (first.dwindles name) (second.dwindles name)⟩

theorem tolerant : Tolerant Unmoved where
  lasting := lasting
  outside outside := ⟨Grows.tolerant.outside outside, SamePrograms.tolerant.outside outside,
    fun _ => Dwindling.tolerant.outside outside⟩
  operate world id operation := ⟨Grows.tolerant.operate world id operation,
    SamePrograms.tolerant.operate world id operation, fun _ =>
    Dwindling.tolerant.operate world id operation⟩
  releaseNow world id unbegun := ⟨Grows.tolerant.releaseNow world id unbegun,
    SamePrograms.tolerant.releaseNow world id unbegun, fun _ =>
    Dwindling.tolerant.releaseNow world id unbegun⟩

theorem fetchDocument (name : String) : (fetchDocument name).Keeps Unmoved := fun world =>
  ⟨Grows.documenting.fetchDocument name world,
    SamePrograms.heedless.executing.fetch name world, fun _ => Dwindling.fetchDocument name world⟩

theorem linkDependency (world : World) (id dependency : DescriptorId) :
    Unmoved world (world.linkDependency id dependency) := by
  refine ⟨Grows.modifyDescriptor world id fun descriptor => ?_, .of_executables rfl,
    fun _ => .of_same rfl rfl⟩
  split <;> exact ⟨rfl, rfl, rfl, fun _ _ slot => slot⟩

theorem linkDependent (world : World) (id dependent : DescriptorId) :
    Unmoved world (world.linkDependent id dependent) :=
  ⟨.linkDependent world id dependent, SamePrograms.heedless.linkDependent world id dependent,
    fun _ => .linkDependent world id dependent⟩

theorem recordDependency (document : Executable) (name : String) :
    (recordDependency document name).Keeps Unmoved :=
  lasting.recordDependency fetchDocument linkDependency document name

end Unmoved

end World

/-! ## Operations that look up no compiled form -/

/-- An operation that goes on in the same way in twin states, and leaves documents where they
are. -/
structure Blind (operation : HostM ε α) : Prop where
  agree : Agree Twins operation operation
  keeps : operation.Keeps Unmoved

namespace Blind

theorem onContext (id : ContextId) (operation : Context.Operation) :
    Blind (onContext id operation.run) :=
  ⟨Twins.onContext_agree id _, Unmoved.tolerant.onContext id operation⟩

theorem inContext (id : ContextId) (operation : Context.Operation) :
    Blind (inContext id operation.run) :=
  ⟨Twins.inContext_agree id _, Unmoved.tolerant.inContext id operation⟩

theorem writeText (id : ContextId) (stream : Stream) (text : String) :
    Blind (writeText id stream text) :=
  ⟨Twins.writeText_agree id stream text, Unmoved.tolerant.writeText id stream text⟩

theorem noteUse (id : ExecutableId) : Blind (noteUse id : HostM ε Unit) :=
  ⟨Twins.noteUse_agree id, Unmoved.tolerant.noteUse id⟩

theorem fetchDocument (name : String) : Blind (fetchDocument name) :=
  ⟨Twins.fetchDocument_agree name, Unmoved.fetchDocument name⟩

/-- A change of neither executables nor documents nor files. -/
theorem modify {change : World → World}
    (commutes : ∀ world executables descriptors,
      change { world with executables, descriptors } =
        { change world with executables, descriptors })
    (same : ∀ world, (change world).executables = world.executables ∧
      (change world).descriptors = world.descriptors ∧ (change world).source = world.source ∧
      (change world).files = world.files) :
    Blind (modify change : HostM ε Unit) := by
  refine ⟨.modify fun _ _ twins => twins.change change commutes (fun world => (same world).1)
    fun world => (same world).2.1, Lasting.modify fun world => ?_⟩
  obtain ⟨executables, descriptors, source, files⟩ := same world
  exact .of_eq executables descriptors source files

theorem newContext (output errorOutput : SinkId) :
    Blind (newContext output errorOutput : HostM ε ContextId) :=
  ⟨Twins.get_agree fun _ _ _ twins =>
    (AgreeFrom.set ⟨⟨_, _, rfl⟩, twins.executables, twins.descriptors⟩).bind fun _ => .pure _,
    fun _ => .of_eq rfl rfl rfl rfl⟩

theorem newSink (sink : Sink) : Blind (newSink sink : HostM ε SinkId) :=
  ⟨Twins.get_agree fun _ _ _ twins =>
    (AgreeFrom.set ⟨⟨_, _, rfl⟩, twins.executables, twins.descriptors⟩).bind fun _ => .pure _,
    fun _ => .of_eq rfl rfl rfl rfl⟩

theorem bind {β : Type} {operation : HostM ε α} {next : α → HostM ε β} (blind : Blind operation)
    (nexts : ∀ value, Blind (next value)) : Blind (operation >>= next) :=
  ⟨blind.agree.bind fun value => (nexts value).agree,
    Unmoved.lasting.bind blind.keeps fun value => (nexts value).keeps⟩

end Blind

/-! ## Two hosts with one document -/

/-- Two hosts that are twins; in them the in-flow codes of a document, as far as their numbers
were free, are found under the keys of a compilation with checking and of one without, and they are
the same. -/
structure Alongside (setting : Setting) (document : Document) (free : Nat → Prop)
    (eager lazy : World) : Prop where
  twins : Twins eager lazy
  unfiled : ∀ number, free number → eager.Unfiled (inFlowDocumentName document number)
  forms : ∀ number, free number → ∀ id,
    (inFlowDocumentName document number, id) ∈ eager.documentEntries → ∃ executable,
      (eager.descriptors.get id).slots.get?
        (setting.preparing true).options.forIncludes.compileKey = some executable ∧
      (lazy.descriptors.get id).slots.get?
        (setting.preparing false).options.forIncludes.compileKey = some executable

/-- Two such hosts in which the document has been compiled, in one with checking and in the other
without. -/
structure Abreast (setting : Setting) (document : Document) (free : Nat → Prop)
    (executable : ExecutableId) (eager lazy : World) : Prop
    extends Alongside setting document free eager lazy where
  known : executable.index < eager.executables.size
  eagerly : (eager.executables.get executable).setting = setting.preparing true
  lazily : (lazy.executables.get executable).setting = setting.preparing false
  sound : (eager.executables.get executable).Sound

/-- A controller that does the same in two such hosts. -/
structure Controller.Even (controller : Controller) (setting : Setting) (document : Document)
    (free : Nat → Prop) (executable : ExecutableId) (context : ContextId) : Prop where
  opening : Agree (Abreast setting document free executable) (controller.opening context)
    (controller.opening context)
  closing : Agree (Abreast setting document free executable)
    (liftM (controller.closing context) : HostM ExecutionError Unit)
    (liftM (controller.closing context))

theorem World.known_of_slot {world : World} {id : DescriptorId} {key : String}
    {executable : ExecutableId}
    (slot : (world.descriptors.get id).slots.get? key = some executable) :
    id.index < world.descriptors.size := by
  by_contra unknown
  rw [Arena.get_of_unknown _ unknown] at slot
  cases slot

theorem Alongside.later {setting : Setting} {document : Document} {free : Nat → Prop}
    {eager lazy after lazyAfter : World}
    (alongside : Alongside setting document free eager lazy) (twins : Twins after lazyAfter)
    (unmoved : Unmoved eager after) (lazyUnmoved : Unmoved lazy lazyAfter) :
    Alongside setting document free after lazyAfter where
  twins := twins
  unfiled number isFree := (unmoved.dwindles _ (alongside.unfiled number isFree)).1
  forms number isFree id member := by
    obtain ⟨executable, slot, lazySlot⟩ := alongside.forms number isFree id
      ((unmoved.dwindles _ (alongside.unfiled number isFree)).2 id member)
    have grown := unmoved.grows.descriptors id (known_of_slot slot)
    have lazyGrown := lazyUnmoved.grows.descriptors id (known_of_slot lazySlot)
    exact ⟨executable, grown.slots _ _ slot, lazyGrown.slots _ _ lazySlot⟩

namespace Abreast

variable {setting : Setting} {document : Document} {free : Nat → Prop}
  {executable : ExecutableId} {eager lazy after lazyAfter : World}

theorem later (abreast : Abreast setting document free executable eager lazy)
    (twins : Twins after lazyAfter) (unmoved : Unmoved eager after)
    (lazyUnmoved : Unmoved lazy lazyAfter) :
    Abreast setting document free executable after lazyAfter := by
  have lazyKnown : executable.index < lazy.executables.size := by
    rw [abreast.twins.executables.size]
    exact abreast.known
  have program := unmoved.programs.programs executable abreast.known
  have lazyProgram := lazyUnmoved.programs.programs executable lazyKnown
  refine ⟨abreast.toAlongside.later twins unmoved lazyUnmoved,
    Nat.lt_of_lt_of_le abreast.known unmoved.programs.size,
    program.setting.symm.trans abreast.eagerly, lazyProgram.setting.symm.trans abreast.lazily,
    abreast.sound.of_same program.segments.symm program.documentName.symm⟩

theorem of_agree {first second : HostM ε α} (agree : Agree Twins first second)
    (kept : first.Keeps Unmoved) (lazyKept : second.Keeps Unmoved) :
    Agree (Abreast setting document free executable) first second := by
  intro eager lazy abreast
  obtain ⟨same, twins⟩ := agree eager lazy abreast.twins
  exact ⟨same, abreast.later twins (kept eager) (lazyKept lazy)⟩

theorem of_blind {operation : HostM ε α} (blind : Blind operation) :
    Agree (Abreast setting document free executable) operation operation :=
  of_agree blind.agree blind.keeps blind.keeps

/-- The executable has the same segments in both. -/
theorem lazySound (abreast : Abreast setting document free executable eager lazy) :
    (lazy.executables.get executable).Sound := by
  obtain ⟨_, same⟩ := abreast.twins.executables.get executable
  rw [same]
  exact abreast.sound.of_same rfl rfl

/-- A change of neither executables nor documents nor files. -/
theorem change (abreast : Abreast setting document free executable eager lazy)
    (change : World → World) (commutes : ∀ world executables descriptors,
      change { world with executables, descriptors } =
        { change world with executables, descriptors })
    (same : ∀ world, (change world).executables = world.executables ∧
      (change world).descriptors = world.descriptors ∧ (change world).source = world.source ∧
      (change world).files = world.files) :
    Abreast setting document free executable (change eager) (change lazy) := by
  have blind : Blind (modify change : HostM Empty Unit) := .modify commutes same
  exact (of_blind blind eager lazy abreast).2

theorem holdingMore (abreast : Abreast setting document free executable eager lazy)
    (more : Holdings) :
    Abreast setting document free executable (eager.holdingMore more) (lazy.holdingMore more) :=
  abreast.change (World.holdingMore · more) (fun _ _ _ => rfl) fun _ => ⟨rfl, rfl, rfl, rfl⟩

theorem entering (abreast : Abreast setting document free executable eager lazy)
    (context : ContextId) :
    Abreast setting document free executable (eager.entering context) (lazy.entering context) :=
  abreast.change (World.entering · context) (fun _ _ _ => rfl) fun _ => ⟨rfl, rfl, rfl, rfl⟩

theorem leaving (abreast : Abreast setting document free executable after lazyAfter)
    (before : Abreast setting document free executable eager lazy) :
    Abreast setting document free executable (after.leaving eager) (lazyAfter.leaving lazy) := by
  have same : lazyAfter.leaving lazy = lazyAfter.leaving eager := by
    obtain ⟨_, _, rfl⟩ := before.twins.rest
    rfl
  rw [same]
  exact abreast.change (World.leaving · eager) (fun _ _ _ => rfl) fun _ => ⟨rfl, rfl, rfl, rfl⟩

theorem releaseUnheld (abreast : Abreast setting document free executable eager lazy) :
    Abreast setting document free executable eager.releaseUnheld lazy.releaseUnheld :=
  abreast.later abreast.twins.releaseUnheld (Unmoved.tolerant.releaseUnheld eager)
    (Unmoved.tolerant.releaseUnheld lazy)

theorem withCurrent {context : ContextId} {first second : HostM ε α}
    (abreast : Abreast setting document free executable eager lazy)
    (inside : AgreeFrom (Abreast setting document free executable) (eager.entering context)
      (lazy.entering context) first second) :
    AgreeFrom (Abreast setting document free executable) eager lazy (withCurrent context first)
      (withCurrent context second) := by
  obtain ⟨same, behind⟩ := inside
  rw [AgreeFrom, HostM.eval_withCurrent, HostM.eval_withCurrent]
  exact ⟨same, behind.leaving abreast⟩

theorem keeping {more : Holdings} {first second : HostM ε α}
    (abreast : Abreast setting document free executable eager lazy)
    (inside : AgreeFrom (Abreast setting document free executable) (eager.holdingMore more)
      (lazy.holdingMore more) first second) :
    AgreeFrom (Abreast setting document free executable) eager lazy (keeping more first)
      (keeping more second) := by
  obtain ⟨same, behind⟩ := inside
  have holdings : lazy.holdings = eager.holdings := by
    obtain ⟨_, _, rfl⟩ := abreast.twins.rest
    rfl
  rw [AgreeFrom, HostM.eval_keeping, HostM.eval_keeping, holdings]
  exact ⟨same, (behind.change (fun world => { world with holdings := eager.holdings })
    (fun _ _ _ => rfl) fun _ => ⟨rfl, rfl, rfl, rfl⟩).releaseUnheld⟩

theorem asInclude {name : String} {first second : HostM ExecutionError α}
    (abreast : Abreast setting document free executable eager lazy)
    (inside : lazy.includeDepth < includeLimit →
      AgreeFrom (Abreast setting document free executable) eager.deeper lazy.deeper first second) :
    AgreeFrom (Abreast setting document free executable) eager lazy (asInclude name first)
      (asInclude name second) := by
  have depth : eager.includeDepth = lazy.includeDepth := by
    obtain ⟨_, _, rfl⟩ := abreast.twins.rest
    rfl
  rw [AgreeFrom, HostM.eval_asInclude, HostM.eval_asInclude, depth]
  by_cases deep : includeLimit < lazy.includeDepth + 1
  · rw [if_pos deep, if_pos deep]
    exact ⟨rfl, abreast⟩
  · rw [if_neg deep, if_neg deep]
    obtain ⟨same, behind⟩ := inside (by omega)
    rw [World.deeper, depth] at same behind
    exact ⟨same, behind.change (fun world => { world with includeDepth := world.includeDepth - 1 })
      (fun _ _ _ => rfl) fun _ => ⟨rfl, rfl, rfl, rfl⟩⟩

end Abreast

/-! ## What a run includes -/

/-- In the course of an activity a program asks, at a site, for the include of a name. -/
inductive Activity.Includes : Nat → Activity → World → Site → String → Prop where
  | asked {levels : Nat} {site : Site} {script : Script Unit} {world between : World}
      {name : String}
      (comes : Comes (site.serveWithin levels) world script (.includeDocument name) between) :
      Activity.Includes levels (.script site script) world site name
  | nested {levels : Nat} {site other : Site} {script : Script Unit} {world between : World}
      {name otherName : String}
      (comes : Comes (site.serveWithin levels) world script (.includeDocument name) between)
      (inner : Activity.Includes levels (.including site name) between other otherName) :
      Activity.Includes levels (.script site script) world other otherName
  | program {levels : Nat} {site other : Site} {document : Executable} {front rest : List Segment}
      {text tag : String} {position : Position} {adapter : AdapterId} {program : Program}
      {world between recorded : World} {name : String}
      (segments : document.segments =
        front ++ .program text tag position adapter program :: rest)
      (walked : (walkSegments (site.runWithin levels) document.documentName site.context
        front).eval world = (.ok (), between))
      (begun : (inContext site.context (Context.addAdapter adapter)).eval between =
        (.ok (), recorded))
      (inner : Activity.Includes levels (.script site program.run) recorded other name) :
      Activity.Includes levels (.walk site document) world other name
  | inside {levels : Nat} {site other : Site} {name otherName : String}
      {world between recorded : World} {included : ExecutableId}
      (shallow : world.includeDepth < includeLimit)
      (sourced : (world.executables.get site.executable).setting.sourced = true)
      (source : world.source.isNone = false)
      (obtained : (obtainExecutable (world.includeSetting site.executable) name).eval
        world.deeper = (.ok included, between))
      (records : between.recording (world.executables.get site.executable) name included =
        recorded)
      (unreleased : (recorded.contexts.get site.context).released = false)
      (inner : Activity.Includes levels
        (.walk ⟨included, site.context⟩ (recorded.executables.get included))
        (recorded.entering site.context) other otherName) :
      Activity.Includes (levels + 1) (.including site name) world other otherName

/-- Whatever is included in the course of an activity, it is in-flow codes of a document with
numbers that were free, and none but the executable of the document includes them. -/
def IncludesOwn (document : Document) (free : Nat → Prop) (executable : ExecutableId)
    (levels : Nat) (activity : Activity) (world : World) : Prop :=
  ∀ site name, Activity.Includes levels activity world site name →
    site.executable = executable ∧
      ∃ number, free number ∧ name = inFlowDocumentName document number

namespace Abreast

section Runs

variable {setting : Setting} {document : Document} {free : Nat → Prop}
  {executable : ExecutableId} {eager lazy : World} {levels : Nat} {site : Site}

/-- An in-flow code is found in both, and it is the same, or in both it is missing. -/
theorem obtainExecutable_agree (abreast : Abreast setting document free executable eager lazy)
    {number : Nat} (isFree : free number) :
    AgreeFrom (Abreast setting document free executable) eager lazy
      (obtainExecutable (eager.includeSetting executable) (inFlowDocumentName document number))
      (obtainExecutable (lazy.includeSetting executable) (inFlowDocumentName document number)) := by
  have source : eager.source = lazy.source := by
    obtain ⟨_, _, rfl⟩ := abreast.twins.rest
    rfl
  rw [World.includeSetting, World.includeSetting, abreast.eagerly, abreast.lazily]
  unfold obtainExecutable
  refine .get ?_
  rw [source]
  refine .ite Iff.rfl (fun _ => .throw abreast _) fun _ => ?_
  have fetches := (of_blind (Blind.fetchDocument (inFlowDocumentName document number)) eager lazy
    abreast).convert ParsingError.document
  refine fetches.bind_from fun id between lazyBetween fetched _ abreastBetween => .get ?_
  have kept : between.kept? (inFlowDocumentName document number) = some id :=
    (abreast.unfiled number isFree).kept_of_fetched (HostM.eval_of_convert_ok fetched)
  rw [kept?_eq] at kept
  obtain ⟨inFlow, slot, lazySlot⟩ :=
    abreastBetween.forms number isFree id (NameTable.mem_of_findEntry kept)
  dsimp only
  rw [slot, lazySlot]
  exact .pure abreastBetween _

/-- A request that is no include. -/
theorem serve_agree (site : Site) {request : Request}
    (noInclude : ∀ name, request ≠ .includeDocument name) :
    Agree (Abreast setting document free executable) (site.serveWithin levels request)
      (site.serveWithin levels request) := by
  let idle : ExecutableId → String → ContextId → HostM ExecutionError Unit := fun _ _ _ => pure ()
  have serves : site.serveWithin levels request =
      serveRequest idle site.executable site.context request := by
    cases request with
    | includeDocument name => exact absurd rfl (noInclude name)
    | _ => rfl
  have kept : (serveRequest idle site.executable site.context request).Keeps Unmoved :=
    Unmoved.tolerant.serveRequest (fun _ => Unmoved.tolerant.lasting.pure ()) request
  rw [serves]
  exact of_agree (Twins.serveRequest_agree idle idle _ _ noInclude) kept kept

/-- Includes of in-flow codes by the document are the same in both. -/
def IncludesAgree (setting : Setting) (document : Document) (free : Nat → Prop)
    (executable : ExecutableId) (levels : Nat) : Prop :=
  ∀ (site : Site) (number : Nat) (eager lazy : World), free number →
    Abreast setting document free executable eager lazy → site.executable = executable →
    IncludesOwn document free executable levels
      (.including site (inFlowDocumentName document number)) lazy →
    AgreeFrom (Abreast setting document free executable) eager lazy
      (includeWithin levels site.executable (inFlowDocumentName document number) site.context)
      (includeWithin levels site.executable (inFlowDocumentName document number) site.context)

/-- By induction on the script. -/
theorem script_agree (includes : IncludesAgree setting document free executable levels)
    (abreast : Abreast setting document free executable eager lazy) {script : Script Unit}
    (own : IncludesOwn document free executable levels (.script site script) lazy) :
    AgreeFrom (Abreast setting document free executable) eager lazy
      (runScript (site.serveWithin levels) script)
      (runScript (site.serveWithin levels) script) := by
  induction script generalizing eager lazy with
  | done outcome => exact ⟨rfl, abreast⟩
  | ask request next ih =>
      have served : AgreeFrom (Abreast setting document free executable) eager lazy
          (site.serveWithin levels request) (site.serveWithin levels request) := by
        by_cases isInclude : ∃ name, request = .includeDocument name
        · obtain ⟨name, rfl⟩ := isInclude
          have comes : Comes (site.serveWithin levels) lazy (.ask (.includeDocument name) next)
              (.includeDocument name) lazy := .here _ _ _
          obtain ⟨isOwn, number, isFree, rfl⟩ := own _ _ (.asked comes)
          exact includes site number eager lazy isFree abreast isOwn fun other otherName inner =>
            own other otherName (.nested comes inner)
        · exact serve_agree site (fun name isName => isInclude ⟨name, isName⟩) eager lazy abreast
      rw [AgreeFrom, eval_runScript_ask, eval_runScript_ask, served.1]
      refine ih _ served.2 fun other otherName inner => own other otherName ?_
      cases inner with
      | asked comes => exact .asked (.later comes)
      | nested comes inner => exact .nested (.later comes) inner

/-- By induction on the segments that are left. -/
theorem walk_agree (includes : IncludesAgree setting document free executable levels)
    (abreast : Abreast setting document free executable eager lazy) {walked other : Executable}
    (twin : walked.Twin other)
    (own : IncludesOwn document free executable levels (.walk site other) lazy) :
    AgreeFrom (Abreast setting document free executable) eager lazy
      (walked.walk (site.runWithin levels) site.context)
      (other.walk (site.runWithin levels) site.context) := by
  obtain ⟨ahead, rfl⟩ := twin
  change AgreeFrom _ eager lazy (walked.walk (site.runWithin levels) site.context)
    (walked.walk (site.runWithin levels) site.context)
  suffices further : ∀ (rest front : List Segment) (between lazyBetween : World),
      walked.segments = front ++ rest →
      (walkSegments (site.runWithin levels) walked.documentName site.context front).eval lazy =
        (.ok (), lazyBetween) →
      Abreast setting document free executable between lazyBetween →
      AgreeFrom (Abreast setting document free executable) between lazyBetween
        (walkSegments (site.runWithin levels) walked.documentName site.context rest)
        (walkSegments (site.runWithin levels) walked.documentName site.context rest) from
    further walked.segments [] eager lazy rfl rfl abreast
  intro rest
  induction rest with
  | nil => exact fun _ _ _ _ _ abreast => .pure abreast ()
  | cons segment rest ih =>
      intro front between lazyBetween segments lazyWalked abreast
      have here : AgreeFrom (Abreast setting document free executable) between lazyBetween
          (runSegment (site.runWithin levels) walked.documentName site.context segment)
          (runSegment (site.runWithin levels) walked.documentName site.context segment) := by
        cases segment with
        | literal text position =>
            have writes := (of_blind (Blind.writeText site.context .output text) between
              lazyBetween abreast).convert ExecutionError.ofContext
            exact (writes.convert _).bind fun _ => .pure ()
        | program text tag position adapter program =>
            have records := of_blind (Blind.inContext site.context (.addAdapter adapter)) between
              lazyBetween abreast
            refine records.bind_from fun _ recorded lazyRecorded _ begun abreast => ?_
            have runs := script_agree includes abreast fun site name inner =>
              own site name (.program segments lazyWalked begun inner)
            exact (runs.convert _).bind fun _ => .pure ()
      rw [walkSegments_cons]
      refine here.bind_from fun _ behind lazyBehind _ lazyRan abreast => ?_
      refine ih (front ++ [segment]) behind lazyBehind ?_ ?_ abreast
      · rw [segments, List.append_assoc, List.singleton_append]
      · rw [walkSegments_append, HostM.eval_bind_of_ok lazyWalked]
        exact lazyRan

/-- A run without container and controller. -/
theorem executeBare_agree (includes : IncludesAgree setting document free executable levels)
    (site : Site) (abreast : Abreast setting document free executable eager lazy)
    (own : (lazy.contexts.get site.context).released = false →
      IncludesOwn document free executable levels
        (.walk site (lazy.executables.get site.executable))
        (lazy.entering site.context)) :
    AgreeFrom (Abreast setting document free executable) eager lazy
      (executeWith (fun executable context program =>
        runScript (serveRequest (includeWithin levels) executable context) program.run)
        site.executable site.context none none)
      (executeWith (fun executable context program =>
        runScript (serveRequest (includeWithin levels) executable context) program.run)
        site.executable site.context none none) := by
  have contexts : eager.contexts = lazy.contexts := by
    obtain ⟨_, _, rfl⟩ := abreast.twins.rest
    rfl
  cases released : (lazy.contexts.get site.context).released with
  | true =>
      rw [AgreeFrom, eval_executeWith_of_released released,
        eval_executeWith_of_released (contexts ▸ released)]
      exact ⟨rfl, abreast⟩
  | false =>
      rw [AgreeFrom, eval_executeWith_of_unreleased released,
        eval_executeWith_of_unreleased (contexts ▸ released)]
      simp only [ite_self]
      refine abreast.withCurrent ?_
      have walks := walk_agree includes (abreast.entering site.context)
        (abreast.twins.executables.get site.executable) (own released)
      exact walks.bind fun _ => of_blind (.noteUse site.executable)

/-- By induction on the levels that are left for includes. -/
theorem includesAgree (levels : Nat) : IncludesAgree setting document free executable levels := by
  induction levels with
  | zero => exact fun _ _ _ _ _ abreast _ _ => .throw abreast _
  | succ levels ih =>
      intro site number eager lazy isFree abreast isOwn own
      subst isOwn
      have source : eager.source = lazy.source := by
        obtain ⟨_, _, rfl⟩ := abreast.twins.rest
        rfl
      have sameSourced : (eager.executables.get site.executable).setting.sourced =
          (lazy.executables.get site.executable).setting.sourced := by
        rw [abreast.eagerly, abreast.lazily]
        rfl
      rw [includeWithin]
      refine abreast.asInclude fun shallow => .get ?_
      have abreastInside : Abreast setting document free site.executable eager.deeper lazy.deeper :=
        abreast.change World.deeper (fun _ _ _ => rfl) fun _ => ⟨rfl, rfl, rfl, rfl⟩
      change AgreeFrom _ _ _
        (if (!(eager.executables.get site.executable).setting.sourced ||
          eager.source.isNone) = true then _ else _)
        (if (!(lazy.executables.get site.executable).setting.sourced ||
          lazy.source.isNone) = true then _ else _)
      rw [sameSourced, source]
      refine .ite Iff.rfl (fun _ => .throw abreastInside _) fun available => ?_
      simp only [Bool.or_eq_true, Bool.not_eq_true', not_or, Bool.not_eq_false,
        Bool.not_eq_true] at available
      obtain ⟨sourced, isThere⟩ := available
      have obtains := (abreastInside.obtainExecutable_agree isFree).convert ExecutionError.ofParsing
      refine obtains.bind_from fun included between lazyBetween _ obtained abreastBetween => ?_
      refine abreastBetween.keeping ?_
      have records := of_agree
        (Twins.recordDependency_agree (abreast.twins.executables.get site.executable)
          (inFlowDocumentName document number))
        (Unmoved.recordDependency _ _) (Unmoved.recordDependency _ _) _ _
        (abreastBetween.holdingMore { executables := [included] })
      refine records.bind_from fun _ recorded lazyRecorded _ recordsLazily abreastRecorded => ?_
      have isRecorded : lazyBetween.recording (lazy.executables.get site.executable)
          (inFlowDocumentName document number) included = lazyRecorded :=
        congrArg Prod.snd recordsLazily
      have ownInside (unreleased : (lazyRecorded.contexts.get site.context).released = false) :
          IncludesOwn document free site.executable levels
            (.walk ⟨included, site.context⟩ (lazyRecorded.executables.get included))
            (lazyRecorded.entering site.context) := fun other otherName inner =>
        own other otherName (.inside shallow sourced isThere (HostM.eval_of_convert_ok obtained)
          isRecorded unreleased inner)
      exact executeBare_agree ih ⟨included, site.context⟩ abreastRecorded ownInside

theorem containerName (abreast : Abreast setting document free executable eager lazy) :
    eager.containerName executable = lazy.containerName executable := by
  rw [World.containerName, World.containerName, abreast.eagerly, abreast.lazily]
  rfl

theorem begun (abreast : Abreast setting document free executable eager lazy) (context : ContextId)
    (container : Option Service) :
    Abreast setting document free executable (eager.begun executable context container)
      (lazy.begun executable context container) := by
  have entered := abreast.entering context
  rw [World.begun, World.begun, abreast.containerName]
  cases container with
  | none => exact entered
  | some service =>
      exact entered.change
        (World.installing · context (lazy.containerName executable) (some service))
        (fun _ _ _ => rfl) fun _ => ⟨rfl, rfl, rfl, rfl⟩

/-- What stood under the container's name is put back, and the use is noted. -/
theorem finishing (abreast : Abreast setting document free executable eager lazy)
    {ended lazyEnded : World} (behind : Abreast setting document free executable ended lazyEnded)
    (context : ContextId) (container : Option Service) (outcome : Except ExecutionError Unit) :
    Abreast setting document free executable
      (ended.finishing eager executable context container outcome)
      (lazyEnded.finishing lazy executable context container outcome) := by
  have found : eager.contained? executable context = lazy.contained? executable context := by
    rw [contained?, contained?, abreast.containerName]
    obtain ⟨_, _, rfl⟩ := abreast.twins.rest
    rfl
  have restores (name : String) (previous : Option Service) :
      Blind (restoreContainer name previous context) := by
    cases previous with
    | some service => exact .onContext context (.setService name service)
    | none => exact .onContext context (.removeService name)
  rw [World.finishing, World.finishing, abreast.containerName, found]
  refine leaving ?_ abreast
  have putBack : Abreast setting document free executable
      (ended.puttingBack context (lazy.containerName executable) container
        (lazy.contained? executable context))
      (lazyEnded.puttingBack context (lazy.containerName executable) container
        (lazy.contained? executable context)) := by
    cases container with
    | none => exact behind
    | some _ => exact (of_blind (restores _ _) _ _ behind).2
  cases outcome with
  | ok _ =>
      exact (of_blind (.noteUse executable : Blind (noteUse executable : HostM ExecutionError Unit))
        _ _ putBack).2
  | error _ => exact putBack

/-- Whatever the caller does around a run, it is the same in both if it includes nothing but the
in-flow codes of the document. -/
theorem execute_agree (abreast : Abreast setting document free executable eager lazy)
    (context : ContextId) (container : Option Service) {controller : Option Controller}
    (even : ∀ present, controller = some present →
      present.Even setting document free executable context)
    (own : ∀ started, Begins executable context container controller lazy started →
      IncludesOwn document free executable (includeLimit + 1)
        (.ofExecution lazy executable context) started) :
    AgreeFrom (Abreast setting document free executable) eager lazy
      (execute executable context container controller)
      (execute executable context container controller) := by
  have contexts : eager.contexts = lazy.contexts := by
    obtain ⟨_, _, rfl⟩ := abreast.twins.rest
    rfl
  have includes : IncludesAgree setting document free executable (includeLimit + 1) :=
    includesAgree _
  have twin := abreast.twins.executables.get executable
  unfold execute
  cases released : (lazy.contexts.get context).released with
  | true =>
      rw [AgreeFrom, eval_executeWith_of_released released,
        eval_executeWith_of_released (contexts ▸ released)]
      exact ⟨rfl, abreast⟩
  | false =>
  cases frozen : (lazy.contexts.get context).frozen with
  | true =>
      rw [AgreeFrom, eval_executeWith_of_frozen frozen,
        eval_executeWith_of_frozen (contexts ▸ frozen)]
      exact executeBare_agree includes ⟨executable, context⟩ abreast fun _ =>
        own _ (.frozen frozen)
  | false =>
      rw [AgreeFrom, eval_executeWith_of_open frozen released,
        eval_executeWith_of_open (contexts ▸ frozen) (contexts ▸ released)]
      have begun := abreast.begun context container
      have walks (started lazyStarted : World)
          (abreast : Abreast setting document free executable started lazyStarted)
          (begins : Begins executable context container controller lazy lazyStarted) :=
        walk_agree includes abreast twin (own lazyStarted begins)
      have controlled : AgreeFrom (Abreast setting document free executable)
          (eager.begun executable context container) (lazy.begun executable context container)
          (withController controller context ((eager.executables.get executable).walk
            (fun program => runFor executable context program.run) context))
          (withController controller context ((lazy.executables.get executable).walk
            (fun program => runFor executable context program.run) context)) := by
        cases controller with
        | none => exact walks _ _ begun (.bare frozen rfl)
        | some present =>
            have opens := (even present rfl).opening _ _ begun
            refine opens.bind_from fun _ started lazyStarted _ opened abreast => ?_
            have ran := walks started lazyStarted abreast (.opened frozen rfl opened)
            exact ran.attempt.bind fun outcome =>
              (even present rfl).closing.bind fun _ => .ofExcept outcome
      obtain ⟨same, behind⟩ := controlled
      dsimp only
      rw [same]
      exact ⟨rfl, abreast.finishing behind context container _⟩

end Runs

end Abreast

end DocumentHost
