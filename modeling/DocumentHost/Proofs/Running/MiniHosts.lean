import DocumentHost.Proofs.Context.Operations
import DocumentHost.Proofs.Host.Composing
import DocumentHost.Proofs.Host.Execution
import DocumentHost.Proofs.Host.Releasing

/-!
# Hosts with Mini adapters only

In a host whose registries have Mini adapters only, whatever is compiled consists of Mini
programs, and whatever has run in a context is a Mini adapter.  Compiling, fetching and all that a
program asks for leave it so, and they leave the number of active includes as it was.
-/

namespace DocumentHost

namespace World

/-- An adapter is a Mini adapter. -/
def IsMini (world : World) (id : AdapterId) : Prop :=
  ∃ profile, (world.adapters.get id).adapter = Mini.adapter profile

/-- The programs among the segments of a document are Mini programs, each compiled from the text
that it stands for at its place. -/
def WrittenInMini (world : World) (documentName : String) (segments : List Segment) : Prop :=
  ∀ text tag position adapter program,
    Segment.program text tag position adapter program ∈ segments →
    world.IsMini adapter ∧
      ∃ isScriptlet, program = Mini.programOf ⟨text, ⟨documentName, position⟩, isScriptlet⟩

/-- A host that has nothing to do with languages other than Mini.  Two adapters may answer to
the same tag. -/
structure MiniOnly (world : World) : Prop where
  registries : ∀ registry, world.MiniRegistry registry
  compiled : ∀ id, world.WrittenInMini (world.executables.get id).documentName
    (world.executables.get id).segments
  ran : ∀ id adapter, (world.contexts.get id).lastAdapter = some adapter → world.IsMini adapter

/-- A Mini host has come of a state, with the same adapters and as many active includes. -/
structure StaysMini (world after : World) : Prop where
  adapters : SameAdapters world after
  depth : after.includeDepth = world.includeDepth
  mini : after.MiniOnly

/-- A Mini host stays one. -/
def Stays (world after : World) : Prop :=
  world.MiniOnly → StaysMini world after

variable {world after : World}

theorem IsMini.of_same {id : AdapterId} (isMini : world.IsMini id)
    (same : SameAdapters world after) : after.IsMini id := by
  rw [IsMini, same.1] at isMini
  exact isMini

theorem WrittenInMini.of_same {documentName : String} {segments : List Segment}
    (written : world.WrittenInMini documentName segments) (same : SameAdapters world after) :
    after.WrittenInMini documentName segments := by
  intro text tag position adapter program member
  obtain ⟨isMini, compiled⟩ := written text tag position adapter program member
  exact ⟨isMini.of_same same, compiled⟩

namespace Stays

theorem lasting : Lasting Stays where
  refl _ mini := ⟨⟨rfl, rfl⟩, rfl, mini⟩
  trans first second mini :=
    have between := first mini
    have after := second between.mini
    ⟨between.adapters.trans after.adapters, after.depth.trans between.depth, after.mini⟩

/-- It is enough to know what becomes of compiled documents, and of what ran last. -/
theorem of_parts (same : SameAdapters world after) (depth : after.includeDepth = world.includeDepth)
    (executables : ∀ id,
      (after.executables.get id).documentName = (world.executables.get id).documentName ∧
        (after.executables.get id).segments = (world.executables.get id).segments)
    (contexts : ∀ id adapter, (after.contexts.get id).lastAdapter = some adapter →
      (world.contexts.get id).lastAdapter = some adapter ∨ world.IsMini adapter) :
    Stays world after := by
  intro mini
  refine ⟨same, depth, fun registry => same.miniRegistry (mini.registries registry), fun id => ?_,
    fun id adapter used => ?_⟩
  · rw [(executables id).1, (executables id).2]
    exact (mini.compiled id).of_same same
  · rcases contexts id adapter used with before | isMini
    · exact (mini.ran id adapter before).of_same same
    · exact isMini.of_same same

theorem of_eq (adapters : after.adapters = world.adapters)
    (registries : after.registries = world.registries)
    (executables : after.executables = world.executables)
    (contexts : after.contexts = world.contexts)
    (depth : after.includeDepth = world.includeDepth) : Stays world after :=
  of_parts ⟨adapters.symm, registries.symm⟩ depth (fun id => by rw [executables]; exact ⟨rfl, rfl⟩)
    fun id adapter used => .inl (by rwa [contexts] at used)

theorem bookkeeping {change : World → World} (bookkeeping : Bookkeeping change) (world : World) :
    Stays world (change world) :=
  .of_eq (bookkeeping.adapters world) (bookkeeping.registries world)
    (bookkeeping.executables world)
    (congrArg Surroundings.contexts (bookkeeping.surroundings_eq world))
    (congrArg Surroundings.includeDepth (bookkeeping.surroundings_eq world))

/-- In a context that is changed, nothing else than a Mini adapter may have run last. -/
theorem modifyContext (world : World) (id : ContextId) {change : Context → Context}
    (ran : ∀ adapter, (change (world.contexts.get id)).lastAdapter = some adapter →
      (world.contexts.get id).lastAdapter = some adapter ∨ world.IsMini adapter) :
    Stays world (world.modifyContext id change) := by
  refine of_parts ⟨rfl, rfl⟩ rfl (fun _ => ⟨rfl, rfl⟩) fun other adapter used => ?_
  rw [World.modifyContext, Arena.get_modify] at used
  split at used
  · rename_i here
    rw [here.1]
    exact ran adapter used
  · exact .inl used

theorem onContext (id : ContextId) (operation : Context.Operation)
    (adds : ∀ adapter, operation.adds? = some adapter → world.IsMini adapter) :
    (onContext id operation.run).KeepsFrom Stays world := by
  rw [HostM.KeepsFrom, HostM.eval_onContext]
  cases done : operation.run (world.contexts.get id) with
  | error error => exact lasting.refl world
  | ok result =>
      obtain ⟨-, -, -, changed⟩ := Context.Operation.permitted_of_run done
      refine modifyContext world id fun adapter used => ?_
      rw [changed, Context.Operation.lastAdapter_of_change, Option.or_eq_some_iff] at used
      rcases used with added | ⟨-, before⟩
      · exact .inr (adds adapter added)
      · exact .inl before

theorem inContext (id : ContextId) (operation : Context.Operation)
    (adds : ∀ adapter, operation.adds? = some adapter → world.IsMini adapter) :
    (inContext id operation.run).KeepsFrom Stays world := by
  rw [HostM.KeepsFrom, DocumentHost.inContext, HostM.eval_convert]
  exact onContext id operation adds

/-- A release forgets which adapters have run, but for the last. -/
theorem releaseNow (world : World) (id : ContextId) : Stays world (world.releaseNow id) := by
  have hooks (adapters : List AdapterId) (start : World) :
      Stays start (adapters.foldl (releaseHook id) start) := by
    induction adapters generalizing start with
    | nil => exact lasting.refl start
    | cons adapter rest ih =>
        have hook : Stays start (start.releaseHook id adapter) := of_eq rfl rfl rfl rfl rfl
        exact lasting.trans hook (ih _)
  have begun : Stays world (world.modifyContext id fun context =>
      { context with releasing := true, adapters := [] }) :=
    modifyContext world id fun _ used => .inl used
  have told := lasting.trans begun (hooks (world.contexts.get id).adapters _)
  exact lasting.trans told (modifyContext _ id fun _ used => .inl used)

theorem releaseUnheld (world : World) : Stays world world.releaseUnheld := by
  have drops (ids : List ContextId) (start : World) :
      Stays start (ids.foldl World.dropContext start) := by
    induction ids generalizing start with
    | nil => exact lasting.refl start
    | cons id rest ih =>
        refine lasting.trans ?_ (ih _)
        unfold World.dropContext
        split
        · exact lasting.refl start
        · exact releaseNow start id
  exact drops _ world

/-- A request, unless it is an include. -/
theorem serveRequest {includes : ExecutableId → String → ContextId → HostM ExecutionError Unit}
    (executable : ExecutableId) (context : ContextId) (request : Request)
    (plain : ∀ name, request ≠ .includeDocument name) :
    (serveRequest includes executable context request).Keeps Stays := by
  intro world
  cases request with
  | write stream text =>
      refine Lasting.convert _ (fun world => ?_) world
      rw [writeText]
      refine Lasting.getFrom ?_
      refine lasting.bindFrom (lasting.ofExcept _ world) fun _ between checked => ?_
      rw [HostM.eval_ofExcept] at checked
      obtain rfl : world = between := congrArg Prod.snd checked
      split
      · exact of_eq rfl rfl rfl rfl rfl
      · exact lasting.throw _ world
  | readAttribute name => exact inContext context (.attribute? name) nofun
  | setAttribute name value => exact inContext context (.setAttribute name value) nofun
  | removeAttribute name => exact inContext context (.removeAttribute name) nofun
  | findService name => exact inContext context (.service? name) nofun
  | setService name service => exact inContext context (.setService name service) nofun
  | removeService name => exact inContext context (.removeService name) nofun
  | readGlobal name => exact lasting.refl world
  | setGlobal name value => exact of_eq rfl rfl rfl rfl rfl
  | removeGlobal name => exact of_eq rfl rfl rfl rfl rfl
  | includeDocument name => exact absurd rfl (plain name)
  | freeze => exact inContext context .freeze nofun
  | release =>
      refine Lasting.convert _ (fun world => ?_) world
      rw [DocumentHost.release]
      refine Lasting.getFrom ?_
      split
      · exact lasting.throw _ world
      · exact releaseNow world context
  | adapterName tag => exact lasting.refl world
  | isCurrent => exact lasting.refl world
  | note text => exact of_eq rfl rfl rfl rfl rfl

theorem noteUse (world : World) (executable : ExecutableId) :
    Stays world ((noteUse executable : HostM ExecutionError Unit).eval world).2 := by
  refine of_parts ⟨rfl, rfl⟩ rfl (fun id => ?_) fun id adapter => .inl
  refine Arena.related_modify
    (fun before after =>
      after.documentName = before.documentName ∧ after.segments = before.segments)
    (fun _ => ⟨rfl, rfl⟩) world.executables executable ?_ id
  exact ⟨rfl, rfl⟩

end Stays

/-- A host is a Mini host if nothing but Mini adapters is registered, and nothing has been compiled
or run. -/
theorem MiniOnly.of_unused (registries : ∀ registry, world.MiniRegistry registry)
    (executables : world.executables = {})
    (unrun : ∀ id, (world.contexts.get id).lastAdapter = none) : world.MiniOnly where
  registries := registries
  compiled id := by
    rw [executables]
    exact fun _ _ _ _ _ member => absurd member List.not_mem_nil
  ran id adapter used := by
    rw [unrun] at used
    cases used

/-! ## Documents -/

/-- In a Mini registry, documents are compiled to Mini programs. -/
theorem writtenInMini_of_mapM {setting : Setting} (mini : world.MiniRegistry setting.registry)
    {document : Document} {isScriptlet : Bool} {raw : List RawSegment} {segments : List Segment}
    (compiled : raw.mapM (world.miniSegment setting document isScriptlet) = .ok segments) :
    world.WrittenInMini document.name segments := by
  intro text tag position adapter program member
  obtain ⟨found, rfl⟩ := compiledFrom_of_mapM compiled member
  exact ⟨mini _ (mem_of_adapterForTag found), isScriptlet, rfl⟩

/-- Two states are one, in a Mini host that a state has become. -/
structure StillMini (origin world other : World) : Prop extends StaysMini origin world where
  same : other = world

namespace StillMini

variable {origin other : World}

theorem refl (mini : origin.MiniOnly) : StillMini origin origin origin :=
  ⟨Stays.lasting.refl origin mini, rfl⟩

theorem step (still : StillMini origin world other) (stays : Stays world after) :
    StillMini origin after after :=
  have onward := stays still.mini
  ⟨⟨still.adapters.trans onward.adapters, onward.depth.trans still.depth, onward.mini⟩, rfl⟩

theorem sourcing (origin : World) : Sourcing (StillMini origin) where
  sameStore still := by
    rw [still.same]
    exact .refl _
  books {world _ change} bookkeeping still := by
    rw [still.same]
    exact still.step (.bookkeeping bookkeeping world)
  hold more still := by
    rw [still.same]
    exact still.step (.of_eq rfl rfl rfl rfl rfl)
  letGo before still := by
    rw [still.same, before.same]
    exact still.step (.of_eq rfl rfl rfl rfl rfl)
  releaseUnheld {world _} still := by
    rw [still.same]
    exact still.step (.releaseUnheld world)

/-- What is compiled is Mini, so that the host remains a Mini host. -/
theorem composing (origin : World) (registry : RegistryId) :
    Composing (StillMini origin) registry (fun _ => True) origin.WrittenInMini where
  sourcing := sourcing origin
  answering :=
    { adapters := fun still => by
        rw [still.same]
        exact ⟨rfl, rfl⟩
      sourced := fun still => by rw [still.same]
      answers := fun still _ _ => by rw [still.same]
      noteAll := fun _ still => by
        rw [still.same]
        exact still.step (.of_eq rfl rfl rfl rfl rfl) }
  addExecutable {world _} executable written still := by
    rw [still.same]
    refine still.step fun mini => ⟨⟨rfl, rfl⟩, rfl, mini.registries, fun id => ?_, mini.ran⟩
    rw [Arena.get_add]
    split
    · exact written.of_same still.adapters
    · exact mini.compiled id
  compiles setting document isScriptlet segments _ := by
    intro world other still compiled succeeded
    have mini := still.mini.registries setting.registry
    rw [eval_compileSegments mini] at succeeded
    exact (writtenInMini_of_mapM mini succeeded).of_same still.adapters.symm

theorem asksAlike (setting : Setting) (document : Document) :
    AsksAlike (StillMini origin) setting document fun _ => True where
  starts _ :=
    { same := fun still => by rw [still.same]
      asked := fun _ _ _ => trivial }
  owns _ := fun _ _ _ _ _ _ => trivial

end StillMini

/-! ## Fetching and compiling -/

namespace Stays

/-- What is done alike in a Mini host and itself leaves a Mini host. -/
theorem of_agreeFrom {ε α : Type} {action : HostM ε α}
    (agree : StillMini world world world → AgreeFrom (StillMini world) world world action action) :
    action.KeepsFrom Stays world :=
  fun mini => (agree (.refl mini)).2.toStaysMini

theorem fetchDocument (name : String) : (fetchDocument name).Keeps Stays := fun world =>
  of_agreeFrom ((StillMini.sourcing world).fetchDocument_agree name world world)

theorem obtainExecutable (setting : Setting) (name : String) :
    (obtainExecutable setting name).Keeps Stays := by
  rw [obtainExecutable_eq]
  refine Lasting.get fun world => ?_
  dsimp only
  split
  · exact lasting.throw _ world
  refine lasting.bind (Lasting.convert _ (fetchDocument name)) (fun id between => ?_) world
  exact of_agreeFrom fun still =>
    (StillMini.composing between setting.registry).formOf_agree id still
      (StillMini.asksAlike setting _)

theorem newExecutable (setting : Setting) (document : Document) :
    (newExecutable setting document).Keeps Stays := fun world =>
  of_agreeFrom fun still => (StillMini.composing world setting.registry).newExecutable_agree
    (StillMini.asksAlike setting document) world world still

theorem recordDependency (document : Executable) (name : String) :
    (recordDependency document name).Keeps Stays :=
  lasting.recordDependency fetchDocument
    (fun world id _ => bookkeeping (.modifyDescriptor id _) world) document name

end Stays

end World

end DocumentHost
