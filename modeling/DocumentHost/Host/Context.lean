import DocumentHost.Host.World

/-!
# Execution contexts

A context is a small state machine with three marks that never go away: frozen
contexts can only be read, enterable ones are bound to one executable, released
ones answer to nothing.  Each operation first makes its check, on the context
alone; writing goes through to a sink, and a release tells every adapter that
ran in the context, once.
-/

namespace DocumentHost

namespace Context

/-- Refuse access after release. -/
def ensureOpen (context : Context) : Except ContextError Unit :=
  if context.released then .error .released else .ok ()

/-- Refuse changes after release and to a frozen context. -/
def ensureMutable (context : Context) : Except ContextError Unit := do
  context.ensureOpen
  if context.frozen then .error .frozen else .ok ()

/-- Forbid further changes. -/
def freeze (context : Context) : Except ContextError (Unit × Context) := do
  context.ensureOpen
  return ((), { context with frozen := true })

/-- Bind to an executable and forbid further changes. -/
def bindEnterable (executable : ExecutableId) (context : Context) :
    Except ContextError (Unit × Context) := do
  context.ensureOpen
  if context.enterableFor.isSome then .error .alreadyEnterable
  else return ((), { context with enterableFor := some executable, frozen := true })

/-- Read an attribute. -/
def attribute? (name : String) (context : Context) :
    Except ContextError (Option Json × Context) := do
  context.ensureOpen
  return (context.attributes.get? name, context)

/-- Set an attribute and return what it was. -/
def setAttribute (name : String) (value : Json) (context : Context) :
    Except ContextError (Option Json × Context) := do
  context.ensureMutable
  return (context.attributes.get? name,
    { context with attributes := context.attributes.insert name value })

/-- All attributes, in the order of their names. -/
def allAttributes (context : Context) :
    Except ContextError (List (String × Json) × Context) := do
  context.ensureOpen
  return (context.attributes.sorted, context)

/-- Remove an attribute and return what it was. -/
def removeAttribute (name : String) (context : Context) :
    Except ContextError (Option Json × Context) := do
  context.ensureMutable
  return (context.attributes.get? name,
    { context with attributes := context.attributes.erase name })

/-- Find a service. -/
def service? (name : String) (context : Context) :
    Except ContextError (Option Service × Context) := do
  context.ensureOpen
  return (context.services.get? name, context)

/-- Install a service and return the one before. -/
def setService (name : String) (service : Service) (context : Context) :
    Except ContextError (Option Service × Context) := do
  context.ensureMutable
  return (context.services.get? name,
    { context with services := context.services.insert name service })

/-- Remove a service and return it. -/
def removeService (name : String) (context : Context) :
    Except ContextError (Option Service × Context) := do
  context.ensureMutable
  return (context.services.get? name,
    { context with services := context.services.erase name })

/-- The sink of an output. -/
def sink (context : Context) : Stream → SinkId
  | .output => context.output
  | .error => context.errorOutput

/-- Replace the sink of an output. -/
def setSink (stream : Stream) (sink : SinkId) (context : Context) :
    Except ContextError (Unit × Context) := do
  context.ensureMutable
  match stream with
  | .output => return ((), { context with output := sink })
  | .error => return ((), { context with errorOutput := sink })

/-- The adapter that ran most recently. -/
def lastAdapter? (context : Context) : Except ContextError (Option AdapterId × Context) := do
  context.ensureOpen
  return (context.lastAdapter, context)

/-- The distinct adapters that have run. -/
def allAdapters (context : Context) : Except ContextError (List AdapterId × Context) := do
  context.ensureOpen
  return (context.adapters, context)

/-- Record that an adapter is about to run.  A frozen context permits it, since the
release needs the record. -/
def addAdapter (adapter : AdapterId) (context : Context) :
    Except ContextError (Unit × Context) := do
  context.ensureOpen
  let adapters :=
    if adapter ∈ context.adapters then context.adapters else context.adapters ++ [adapter]
  return ((), { context with adapters := adapters, lastAdapter := some adapter })

end Context

namespace Sink

/-- Take a text, as a whole or not at all. -/
def write (sink : Sink) (text : String) : Except SinkError Sink :=
  match sink.limit with
  | some limit =>
      if limit < sink.text.utf8ByteSize + text.utf8ByteSize then .error .full
      else .ok { sink with text := sink.text ++ text }
  | none => .ok { sink with text := sink.text ++ text }

/-- Pass on what is held back, which nothing is. -/
def flush (sink : Sink) : Except SinkError Unit :=
  if sink.flushFails then .error .flushRefused else .ok ()

end Sink

/-- Carry out an operation on a context. -/
def onContext {α : Type} (id : ContextId)
    (operation : Context → Except ContextError (α × Context)) : HostM ContextError α := do
  let (value, changed) ← HostM.ofExcept (operation ((← get).contexts.get id))
  modify fun world => world.modifyContext id fun _ => changed
  return value

/-- Write a text to an output of a context. -/
def writeText (id : ContextId) (stream : Stream) (text : String) : HostM ContextError Unit := do
  let world ← get
  let context := world.contexts.get id
  HostM.ofExcept context.ensureOpen
  match (world.sinks.get (context.sink stream)).write text with
  | .ok sink => set { world with sinks := world.sinks.modify (context.sink stream) fun _ => sink }
  | .error reason => throw (.output reason)

/-- Flush the output of a context, then its error output. -/
def flushOutputs (id : ContextId) : HostM ContextError Unit := do
  let world ← get
  let context := world.contexts.get id
  HostM.ofExcept context.ensureOpen
  HostM.ofExcept
    ((world.sinks.get context.output).flush.mapError ContextError.output)
  HostM.ofExcept
    ((world.sinks.get context.errorOutput).flush.mapError ContextError.output)

namespace World

/-- Tell an adapter that a context is released. -/
def releaseHook (context : ContextId) (world : World) (adapter : AdapterId) : World :=
  let marked := { world with journal := world.journal ++ [Event.releaseHook context adapter] }
  marked.noteAll
    ((world.adapters.get adapter).adapter.onRelease (world.contexts.get context).released)

/-- Release a context whose release has not begun.  The mark of the release is set
when all adapters have been told. -/
def releaseNow (world : World) (id : ContextId) : World :=
  let adapters := (world.contexts.get id).adapters
  let begun := world.modifyContext id fun context =>
    { context with releasing := true, adapters := [] }
  (adapters.foldl (releaseHook id) begun).modifyContext id fun context =>
    { context with released := true }

/-- Release a context that nobody holds any longer, unless it was released before. -/
def dropContext (world : World) (id : ContextId) : World :=
  if (world.contexts.get id).releasing then world else world.releaseNow id

end World

/-- Release a context.  A second release is an error. -/
def release (id : ContextId) : HostM ContextError Unit := do
  if ((← get).contexts.get id).releasing then throw .alreadyReleased
  modify fun world => world.releaseNow id

/-- Make a context that writes to two sinks. -/
def newContext {ε : Type} (output errorOutput : SinkId) : HostM ε ContextId := do
  let world ← get
  let (id, contexts) := world.contexts.add { output, errorOutput }
  set { world with contexts }
  return id

/-- Make a sink. -/
def newSink {ε : Type} (sink : Sink) : HostM ε SinkId := do
  let world ← get
  let (id, sinks) := world.sinks.add sink
  set { world with sinks }
  return id

/-- Make a context current, or none, and return the one before. -/
def replaceCurrent {ε : Type} (context : Option ContextId) : HostM ε (Option ContextId) := do
  let previous := (← get).current
  modify fun world => { world with current := context }
  return previous

/-- Carry out an operation while more is held on its behalf. -/
def holding {ε α : Type} (more : Holdings) (action : HostM ε α) : HostM ε α := do
  let before := (← get).holdings
  modify fun world => { world with holdings := more.union before }
  let outcome ← action.attempt
  modify fun world => { world with holdings := before }
  HostM.ofExcept outcome

/-- Carry out an operation while a context is current.  The one before is held
meanwhile, and it is current again afterwards, however the operation ends. -/
def withCurrent {ε α : Type} (context : ContextId) (action : HostM ε α) : HostM ε α := do
  let previous ← replaceCurrent (some context)
  let outcome ← (holding { contexts := previous.toList } action).attempt
  let _ ← replaceCurrent previous
  HostM.ofExcept outcome

end DocumentHost
