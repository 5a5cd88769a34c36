import DocumentHost.ErrorReport
import DocumentHost.Host.Execute
import DocumentHost.Host.Inspection

/-!
# Observing controllers

An observer is a controller that reports the container it finds at the
beginning and at the end of a run.  At the beginning it may also interfere: it
can refuse, freeze or release the context, leave a trace in it, or try to bind
a context under a key while the executable is being made enterable.
-/

namespace DocumentHost.Observer

/-- How an observer interferes. -/
inductive Interference where
  | refuse
  | freeze
  | release
  | leaveTrace
  /-- Bind another context under the same key. -/
  | rebind
  /-- Bind the same context under another key. -/
  | rebindSame
  | nothing
deriving DecidableEq, Repr

/-- The executable and the key for which a context is being made enterable. -/
structure Binding where
  executable : ExecutableId
  key : String

/-- Bind a context under a key and report whether it was bound. -/
def bindAgain (executable : ExecutableId) (key : String) (context : ContextId) :
    HostM ExecutionError Unit := do
  let bound ← bindEnterable executable key context
  modify fun world => world.note ("rebound " ++ if bound then "true" else "false")

/-- Bind a fresh context, whose output goes nowhere.  If that fails, nobody holds it. -/
def bindFresh (executable : ExecutableId) (key : String) : HostM ExecutionError Unit := do
  let output ← newSink {}
  let errorOutput ← newSink {}
  let fresh ← newContext output errorOutput
  let outcome ← (bindAgain executable key fresh).attempt
  if ((← get).contexts.get fresh).enterableFor.isNone then
    modify fun world => world.dropContext fresh
  HostM.ofExcept outcome

/-- What an observer does behind its first report. -/
def interfere (binding : Option Binding) (context : ContextId) :
    Interference → HostM ExecutionError Unit
  | .refuse => throw (.ofDescription "initialize refused")
  | .freeze => inContext context Context.freeze
  | .release => (release context).convert ExecutionError.ofContext
  | .leaveTrace => do
      let _ ← inContext context (Context.setAttribute "seen" (.text "yes"))
  | .rebind => do
      match binding with
      | some binding => bindFresh binding.executable binding.key
      | none => pure ()
  | .rebindSame => do
      match binding with
      | some binding => bindAgain binding.executable "inner" context
      | none => pure ()
  | .nothing => pure ()

/-- The value that shows the container of a context, or why it cannot be seen. -/
def seen (world : World) (containerName : String) (context : ContextId) : Json :=
  match Context.service? containerName (world.contexts.get context) with
  | .ok (service, _) => Service.valueOf service
  | .error error => error.report

/-- The observing controller. -/
def controller (containerName : String) (binding : Option Binding)
    (interference : Interference) : Controller where
  opening context := do
    modify fun world =>
      world.note ("initialize " ++ (seen world containerName context).compact)
    interfere binding context interference
  closing context :=
    modify fun world =>
      world.note ("finish " ++ (seen world containerName context).compact)

end DocumentHost.Observer
