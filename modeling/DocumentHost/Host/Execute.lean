import DocumentHost.Host.Compile
import DocumentHost.Host.Context
import DocumentHost.Host.Values

/-!
# Running documents

An execution runs the segments of a document in order against a context, which
is current meanwhile.  On a context that is not frozen the caller's container
is installed for the time of the run and a controller brackets it.  Programs
act by requests; an include runs another document of the source against the
same context, and includes nest up to a limit.  A context can be bound to an
executable under a key, and entry points of its language can then be run in it
any number of times.
-/

namespace DocumentHost

/-- The most includes that are active at one time. -/
def includeLimit : Nat := 64

/-- What the caller does around a run.  Beginning may fail, finishing may not. -/
structure Controller where
  opening : ContextId → HostM ExecutionError Unit
  closing : ContextId → StateM World Unit

/-- Carry out an operation as one more active include.  The number of active includes
is afterwards what it was, however the operation ends. -/
def asInclude {α : Type} (name : String) (action : HostM ExecutionError α) :
    HostM ExecutionError α := do
  let depth := (← get).includeDepth
  if includeLimit < depth + 1 then throw (.ofDocument (.dependencyLoop name))
  modify fun world => { world with includeDepth := depth + 1 }
  let outcome ← action.attempt
  modify fun world => { world with includeDepth := world.includeDepth - 1 }
  HostM.ofExcept outcome

/-! ## Serving requests -/

/-- A context operation whose failure is an execution error. -/
def inContext {α : Type} (context : ContextId)
    (operation : Context → Except ContextError (α × Context)) : HostM ExecutionError α :=
  (onContext context operation).convert ExecutionError.ofContext

/-- Serve a request of a program that runs for an executable in a context.
`includeDocument` runs another document in the same context. -/
def serveRequest
    (includeDocument : ExecutableId → String → ContextId → HostM ExecutionError Unit)
    (executable : ExecutableId) (context : ContextId) :
    (request : Request) → HostM ExecutionError request.Reply
  | .write stream text => (writeText context stream text).convert ExecutionError.ofContext
  | .readAttribute name => inContext context (Context.attribute? name)
  | .setAttribute name value => inContext context (Context.setAttribute name value)
  | .removeAttribute name => inContext context (Context.removeAttribute name)
  | .findService name => inContext context (Context.service? name)
  | .setService name service => inContext context (Context.setService name service)
  | .removeService name => inContext context (Context.removeService name)
  | .readGlobal name => do return (← get).globals.get? name
  | .setGlobal name value => setGlobal name value
  | .removeGlobal name => removeGlobal name
  | .includeDocument name => includeDocument executable name context
  | .freeze => inContext context Context.freeze
  | .release => (release context).convert ExecutionError.ofContext
  | .adapterName tag => do
      let world ← get
      let registry := (world.executables.get executable).setting.registry
      return (world.adapterForTag registry tag).map fun adapter => (world.profile adapter).name
  | .isCurrent => do return (← get).current = some context
  | .note text => modify fun world => world.note text

/-- Carry out a script whose requests are served one after the other. -/
def runScript {α : Type} (serve : (request : Request) → HostM ExecutionError request.Reply)
    (script : Script α) : HostM ExecutionError α :=
  ExceptT.mk (script.run fun request => (serve request).run)

/-! ## Execution -/

/-- Run one segment. -/
def walkSegment (runProgram : Program → HostM ExecutionError Unit) (context : ContextId) :
    Segment → HostM ExecutionError Unit
  | .literal text _ => (writeText context .output text).convert ExecutionError.ofContext
  | .program _ _ _ _ program => runProgram program

/-- Run segments in order, up to the first that fails.  The failure of a segment gets
a frame; that a program cannot begin because the context is released gets none. -/
def walkSegments (runProgram : Program → HostM ExecutionError Unit) (documentName : String)
    (context : ContextId) : List Segment → HostM ExecutionError Unit
  | [] => pure ()
  | segment :: rest => do
      match segment with
      | .literal _ _ => pure ()
      | .program _ _ _ adapter _ => inContext context (Context.addAdapter adapter)
      (walkSegment runProgram context segment).convert fun error =>
        error.passedThrough ⟨documentName, segment.position⟩
      walkSegments runProgram documentName context rest

/-- Install a container under a name for the time of an operation, and put back what
was there.  Putting back may fail without notice. -/
def withContainer {α : Type} (name : String) (container : Option Service) (context : ContextId)
    (action : HostM ExecutionError α) : HostM ExecutionError α := do
  match container with
  | none => action
  | some container => do
      let previous ← inContext context (Context.setService name container)
      let outcome ← action.attempt
      let restore : HostM ContextError (Option Service) :=
        match previous with
        | some service => onContext context (Context.setService name service)
        | none => onContext context (Context.removeService name)
      let _ ← restore.attempt
      HostM.ofExcept outcome

/-- Bracket an operation by a controller.  The end is told only if the beginning was
no failure. -/
def withController {α : Type} (controller : Option Controller) (context : ContextId)
    (action : HostM ExecutionError α) : HostM ExecutionError α := do
  match controller with
  | none => action
  | some controller => do
      controller.opening context
      let outcome ← action.attempt
      controller.closing context
      HostM.ofExcept outcome

/-- Note that an executable was used just now. -/
def noteUse {ε : Type} (executable : ExecutableId) : HostM ε Unit := do
  let now ← readClock
  modify fun world => world.modifyExecutable executable fun used => { used with lastUsed := now }

/-- Execute a document against a context, given how its programs are run. -/
def executeWith (runProgram : ExecutableId → ContextId → Program → HostM ExecutionError Unit)
    (executable : ExecutableId) (context : ContextId) (container : Option Service)
    (controller : Option Controller) : HostM ExecutionError Unit := do
  if ((← get).contexts.get context).released then throw (.ofContext .released)
  withCurrent context do
    let world ← get
    let document := world.executables.get executable
    let frozen := (world.contexts.get context).frozen
    withContainer document.setting.options.containerService
      (if frozen then none else container) context do
        withController (if frozen then none else controller) context do
          walkSegments (runProgram executable context) document.documentName context
            document.segments
    noteUse executable

/-- Record that the including document depends on the included one, if both can be
had from the source. -/
def recordDependency (document : Executable) (name : String) : HostM ExecutionError Unit := do
  if document.partition = (← get).sourceIdentifier then
    let includer ← (fetchDocument document.documentName).attempt
    match includer with
    | .ok includer => do
        let included ← (fetchDocument name).attempt
        match included with
        | .ok included => modify fun world => world.linkDependency includer included
        | .error _ => pure ()
    | .error _ => do
        let _ ← ((fetchDocument name).attempt : HostM ExecutionError (Except DocumentError _))
        pure ()

/-- Include a document while `levels` further includes may be nested in it. -/
def includeWithin : (levels : Nat) → ExecutableId → String → ContextId →
    HostM ExecutionError Unit
  | 0, _, name, _ => throw (.ofDocument (.dependencyLoop name))
  | levels + 1, executable, name, context =>
      asInclude name do
        let world ← get
        let document := world.executables.get executable
        if !document.setting.sourced || world.source.isNone then
          throw (.ofParsing (.needsSource name))
        let setting : Setting :=
          { document.setting with options := document.setting.options.forIncludes }
        let included ← (obtainExecutable setting name).convert ExecutionError.ofParsing
        keeping { executables := [included] } do
          recordDependency document name
          executeWith
            (fun executable context program =>
              runScript (serveRequest (includeWithin levels) executable context) program.run)
            included context none none

/-- Include a document by name and run it against a context.  The included document is
compiled with the include parser, at most once, and recorded as a dependency. -/
def includeDocument (executable : ExecutableId) (name : String) (context : ContextId) :
    HostM ExecutionError Unit :=
  includeWithin (includeLimit + 1) executable name context

/-- Carry out a script for an executable in a context. -/
def runFor {α : Type} (executable : ExecutableId) (context : ContextId) (script : Script α) :
    HostM ExecutionError α :=
  runScript (serveRequest includeDocument executable context) script

/-- Execute a document against a context.  On a frozen context container and
controller are left out. -/
def execute (executable : ExecutableId) (context : ContextId)
    (container : Option Service := none) (controller : Option Controller := none) :
    HostM ExecutionError Unit :=
  executeWith (fun executable context program => runFor executable context program.run)
    executable context container controller

/-! ## Entering -/

/-- Execute a document against a context and bind the context under a key.  A key that
is taken, before the run or after it, makes the answer false. -/
def bindEnterable (executable : ExecutableId) (key : String) (context : ContextId)
    (container : Option Service := none) (controller : Option Controller := none) :
    HostM ExecutionError Bool := do
  let world ← get
  if ((world.executables.get executable).enterable.get? key).isSome then return false
  if (world.contexts.get context).enterableFor.isSome then
    throw (.ofContext .alreadyEnterable)
  execute executable context container controller
  if (((← get).executables.get executable).enterable.get? key).isSome then return false
  inContext context (Context.bindEnterable executable)
  modify fun world => world.modifyExecutable executable fun bound =>
    { bound with enterable := bound.enterable.insert key context }
  return true

/-- Run an entry point of the adapter that ran last in a context. -/
def enterContext (executable : ExecutableId) (context : ContextId) (entry : String)
    (arguments : List Json) : HostM ExecutionError Json := do
  match ← inContext context Context.lastAdapter? with
  | none => throw (.ofContext .noAdapter)
  | some id =>
      withCurrent context do
        let adapter := ((← get).adapters.get id).adapter
        runFor executable context (adapter.enter entry arguments)

/-- Run an entry point in the context that is bound under a key. -/
def enter (executable : ExecutableId) (key entry : String) (arguments : List Json) :
    HostM ExecutionError Json := do
  let world ← get
  match (world.executables.get executable).enterable.get? key with
  | none => throw (.ofContext (.notEnterable key))
  | some context =>
      if (world.contexts.get context).enterableFor ≠ some executable then
        throw (.ofContext (.foreignExecutable key))
      let value ← enterContext executable context entry arguments
      noteUse executable
      return value

/-- Unbind the context under a key and release it. -/
def releaseBound (executable : ExecutableId) (key : String) : HostM ExecutionError Bool := do
  match ((← get).executables.get executable).enterable.get? key with
  | none => return false
  | some context =>
      modify fun world => world.modifyExecutable executable fun bound =>
        { bound with enterable := bound.enterable.erase key }
      (release context).convert ExecutionError.ofContext
      return true

/-- Check ahead of running that the programs of a document can run. -/
def prepare (executable : ExecutableId) : HostM PreparationError Unit := do
  prepareSegments ((← get).executables.get executable).segments

end DocumentHost
