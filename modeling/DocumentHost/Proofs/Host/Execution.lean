import DocumentHost.Proofs.Host.Compilation

/-!
# What an execution keeps

A running program changes documents only by includes: they take documents from the source,
fill slots, and record dependencies.  A relation between states that tolerates changes aside,
and that these steps keep, lasts through every execution, however deep includes are nested.
-/

namespace DocumentHost

/-- What a controller does around a run in a context keeps a relation. -/
structure Controller.Keeps (Related : World → World → Prop) (context : ContextId)
    (controller : Controller) : Prop where
  opening : (controller.opening context).Keeps Related
  closing : ∀ world, Related world ((controller.closing context).run world).2

namespace Tolerant

variable {α : Type} {Related : World → World → Prop} {context : ContextId}

theorem obtainExecutable (tolerant : Tolerant Related)
    (fetch : ∀ name, (fetchDocument name).Keeps Related)
    (plant : ∀ document name code tag form,
      (plantInFlow document name code tag form).Keeps Related)
    (fill : ∀ (world : World) id key executable,
      Related world (world.fillSlot id key executable).2)
    (setting : Setting) (name : String) : (obtainExecutable setting name).Keeps Related := by
  unfold DocumentHost.obtainExecutable
  refine Lasting.get fun world => ?_
  dsimp only
  split
  · exact tolerant.lasting.throw _ world
  refine tolerant.lasting.bind (Lasting.convert _ (fetch name)) (fun id => ?_) world
  refine Lasting.get fun world => ?_
  split
  · exact tolerant.lasting.pure _ world
  · refine tolerant.lasting.bind (tolerant.newExecutable (fun _ => plant _ _) setting)
      (fun executable => ?_) world
    refine Lasting.get fun world => ?_
    exact tolerant.lasting.bind (Lasting.modify fun world => fill world id _ executable)
      (fun _ => tolerant.lasting.pure _) world

theorem withContainer (tolerant : Tolerant Related) (name : String) (container : Option Service)
    {action : HostM ExecutionError α} (kept : action.Keeps Related) :
    (withContainer name container context action).Keeps Related := by
  cases container with
  | none => exact kept
  | some container =>
      refine tolerant.lasting.bind (tolerant.inContext context (.setService name container))
        fun previous => ?_
      refine tolerant.lasting.bind (Lasting.attempt kept) fun outcome => ?_
      refine tolerant.lasting.bind (Lasting.attempt ?restores) fun _ =>
        tolerant.lasting.ofExcept outcome
      cases previous with
      | some service => exact tolerant.onContext context (.setService name service)
      | none => exact tolerant.onContext context (.removeService name)

theorem withController (tolerant : Tolerant Related) {controller : Option Controller}
    (controlled : ∀ present, controller = some present → present.Keeps Related context)
    {action : HostM ExecutionError α} (kept : action.Keeps Related) :
    (withController controller context action).Keeps Related := by
  cases controller with
  | none => exact kept
  | some controller =>
      obtain ⟨opening, closing⟩ := controlled controller rfl
      refine tolerant.lasting.bind opening fun _ => ?_
      refine tolerant.lasting.bind (Lasting.attempt kept) fun outcome => ?_
      have closes : (liftM (controller.closing context) : HostM ExecutionError Unit).Keeps
          Related := closing
      exact tolerant.lasting.bind closes fun _ => tolerant.lasting.ofExcept outcome

/-- By induction on the segments. -/
theorem walkSegments (tolerant : Tolerant Related) {runProgram : Program → HostM ExecutionError Unit}
    (runs : ∀ program, (runProgram program).Keeps Related) (documentName : String)
    (segments : List Segment) :
    (walkSegments runProgram documentName context segments).Keeps Related := by
  induction segments with
  | nil => exact tolerant.lasting.pure _
  | cons segment rest ih =>
      cases segment with
      | literal text position =>
          have written := Lasting.convert ExecutionError.ofContext
            (tolerant.writeText context .output text)
          exact tolerant.lasting.bind (Lasting.convert _ written) fun _ => ih
      | program text tag position adapter program =>
          refine tolerant.lasting.bind (tolerant.inContext context (.addAdapter adapter)) fun _ => ?_
          exact tolerant.lasting.bind (Lasting.convert _ (runs program)) fun _ => ih

theorem executeWith (tolerant : Tolerant Related)
    {run : ExecutableId → ContextId → Program → HostM ExecutionError Unit}
    {executable : ExecutableId} (runs : ∀ program, (run executable context program).Keeps Related)
    (container : Option Service) {controller : Option Controller}
    (controlled : ∀ present, controller = some present → present.Keeps Related context) :
    (executeWith run executable context container controller).Keeps Related := by
  unfold DocumentHost.executeWith
  refine Lasting.get fun world => ?_
  dsimp only
  split
  · exact tolerant.lasting.throw _ world
  refine tolerant.withCurrent ?_ world
  refine Lasting.get fun world => ?_
  refine tolerant.lasting.bind ?_ (fun _ => tolerant.noteUse executable) world
  refine tolerant.withContainer _ _ (tolerant.withController ?_ (tolerant.walkSegments runs _ _))
  intro present chosen
  split at chosen
  · cases chosen
  · exact controlled present chosen

/-- By induction on the script. -/
theorem runScript (tolerant : Tolerant Related)
    {serve : (request : Request) → HostM ExecutionError request.Reply}
    (serves : ∀ request, (serve request).Keeps Related) (script : Script α) :
    (runScript serve script).Keeps Related := by
  intro world
  induction script generalizing world with
  | done outcome => exact tolerant.lasting.refl world
  | ask request next ih =>
      exact tolerant.lasting.trans (serves request world)
        (ih ((serve request).eval world).1 ((serve request).eval world).2)

/-- A request that is no include. -/
theorem serveRequest (tolerant : Tolerant Related)
    {includes : ExecutableId → String → ContextId → HostM ExecutionError Unit}
    {executable : ExecutableId}
    (including : ∀ name, (includes executable name context).Keeps Related) (request : Request) :
    (serveRequest includes executable context request).Keeps Related := by
  cases request with
  | write stream text => exact Lasting.convert _ (tolerant.writeText context stream text)
  | readAttribute name => exact tolerant.inContext context (.attribute? name)
  | setAttribute name value => exact tolerant.inContext context (.setAttribute name value)
  | removeAttribute name => exact tolerant.inContext context (.removeAttribute name)
  | findService name => exact tolerant.inContext context (.service? name)
  | setService name service => exact tolerant.inContext context (.setService name service)
  | removeService name => exact tolerant.inContext context (.removeService name)
  | readGlobal name => exact Lasting.get fun world => tolerant.lasting.pure _ world
  | setGlobal name value =>
      exact fun world => tolerant.outside (.of_eq rfl rfl rfl rfl rfl rfl rfl rfl)
  | removeGlobal name =>
      exact fun world => tolerant.outside (.of_eq rfl rfl rfl rfl rfl rfl rfl rfl)
  | includeDocument name => exact including name
  | freeze => exact tolerant.inContext context .freeze
  | release => exact Lasting.convert _ (tolerant.release context)
  | adapterName tag => exact Lasting.get fun world => tolerant.lasting.pure _ world
  | isCurrent => exact Lasting.get fun world => tolerant.lasting.pure _ world
  | note text => exact Lasting.modify fun world => tolerant.noteAll world [text]

end Tolerant

theorem Lasting.recordDependency {Related : World → World → Prop} (lasting : Lasting Related)
    (fetch : ∀ name, (fetchDocument name).Keeps Related)
    (depend : ∀ (world : World) (id dependency : DescriptorId),
      Related world (world.linkDependency id dependency))
    (document : Executable) (name : String) : (recordDependency document name).Keeps Related := by
  unfold DocumentHost.recordDependency
  refine Lasting.get fun world => ?_
  split
  · refine lasting.bind (Lasting.attempt (fetch _)) (fun includer => ?_) world
    cases includer with
    | error error =>
        exact lasting.bind (Lasting.attempt (fetch name)) fun _ => lasting.pure _
    | ok includer =>
        refine lasting.bind (Lasting.attempt (fetch name)) fun included => ?_
        cases included with
        | ok included => exact Lasting.modify fun world => depend world includer included
        | error error => exact lasting.pure _
  · exact lasting.pure _ world

/-- A relation that tolerates changes aside and is kept by what an include does to
documents. -/
structure Executing (Related : World → World → Prop) : Prop where
  tolerant : Tolerant Related
  fetch : ∀ name, (fetchDocument name).Keeps Related
  obtains : ∀ setting name, (obtainExecutable setting name).Keeps Related
  depend : ∀ (world : World) (id dependency : DescriptorId),
    Related world (world.linkDependency id dependency)

namespace Executing

variable {α : Type} {Related : World → World → Prop}

theorem recordDependency (executing : Executing Related) (document : Executable) (name : String) :
    (recordDependency document name).Keeps Related :=
  executing.tolerant.lasting.recordDependency executing.fetch executing.depend document name

/-- By induction on the levels of includes that may be nested. -/
theorem includeWithin (executing : Executing Related) (levels : Nat) (executable : ExecutableId)
    (name : String) (context : ContextId) :
    (includeWithin levels executable name context).Keeps Related := by
  have tolerant := executing.tolerant
  induction levels generalizing executable name with
  | zero => exact tolerant.lasting.throw _
  | succ levels ih =>
      rw [DocumentHost.includeWithin]
      refine tolerant.asInclude name ?_
      refine Lasting.get fun world => ?_
      dsimp only
      split
      · exact tolerant.lasting.throw _ world
      refine tolerant.lasting.bind (Lasting.convert _ (executing.obtains _ _)) (fun included => ?_)
        world
      refine tolerant.keeping _ ?_
      refine tolerant.lasting.bind (executing.recordDependency _ _) fun _ => ?_
      refine tolerant.executeWith (fun program => ?_) none nofun
      exact tolerant.runScript (tolerant.serveRequest fun name => ih included name) program.run

theorem runFor (executing : Executing Related) (executable : ExecutableId) (context : ContextId)
    (script : Script α) : (runFor executable context script).Keeps Related :=
  executing.tolerant.runScript
    (executing.tolerant.serveRequest fun name => executing.includeWithin _ _ name _) script

theorem execute (executing : Executing Related) (executable : ExecutableId) (context : ContextId)
    (container : Option Service) {controller : Option Controller}
    (controlled : ∀ present, controller = some present → present.Keeps Related context) :
    (execute executable context container controller).Keeps Related :=
  executing.tolerant.executeWith (fun program => executing.runFor executable context program.run)
    container controlled

theorem enterContext (executing : Executing Related) (executable : ExecutableId)
    (context : ContextId) (entry : String) (arguments : List Json) :
    (enterContext executable context entry arguments).Keeps Related := by
  have tolerant := executing.tolerant
  refine tolerant.lasting.bind (tolerant.inContext context .lastAdapter?) fun adapter => ?_
  cases adapter with
  | none => exact tolerant.lasting.throw _
  | some adapter =>
      exact tolerant.withCurrent (Lasting.get fun world => executing.runFor _ _ _ world)

theorem enter (executing : Executing Related) (executable : ExecutableId) (key entry : String)
    (arguments : List Json) : (enter executable key entry arguments).Keeps Related := by
  have tolerant := executing.tolerant
  unfold DocumentHost.enter
  refine Lasting.get fun world => ?_
  split
  · exact tolerant.lasting.throw _ world
  dsimp only
  split
  · exact tolerant.lasting.throw _ world
  · refine tolerant.lasting.bind (executing.enterContext _ _ _ _) (fun value => ?_) world
    exact tolerant.lasting.bind (tolerant.noteUse executable) fun _ => tolerant.lasting.pure value

end Executing

end DocumentHost
