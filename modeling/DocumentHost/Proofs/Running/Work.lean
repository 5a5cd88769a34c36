import DocumentHost.Mini.Language
import DocumentHost.Proofs.Host.Brackets

/-!
# What is left to do

A run is told here without any measure of how long it may go on.  Work is what is left to do: a
change of the state, a call of an entry point, or an include, and what comes behind it.  Calls
and includes are only named in it; the work they stand for is made when they begin, from the
entry points and the documents that there are then.
-/

namespace DocumentHost

/-- What a program runs for, and the context it works on. -/
structure Site where
  executable : ExecutableId
  context : ContextId

/-- What is left to do, up to an outcome. -/
inductive Work (α : Type) where
  | finish (outcome : Except ExecutionError α)
  /-- Change the state.  What comes behind may depend on the state before. -/
  | act (change : World → World) (next : World → Work α)
  /-- Run an entry point of Mini. -/
  | call (site : Site) (name : String) (arguments : List Json)
      (next : Except ExecutionError Json → Work α)
  /-- Run another document. -/
  | includeDocument (site : Site) (name : String) (next : Except ExecutionError Unit → Work α)
  /-- The call or include that was begun last has come to its end. -/
  | close (next : Work α)

namespace Work

variable {α β γ : Type}

/-- Go on with the outcome of some work. -/
def andThen : Work α → (Except ExecutionError α → Work β) → Work β
  | .finish outcome, next => next outcome
  | .act change behind, next => .act change fun world => (behind world).andThen next
  | .call site name arguments behind, next =>
      .call site name arguments fun outcome => (behind outcome).andThen next
  | .includeDocument site name behind, next =>
      .includeDocument site name fun outcome => (behind outcome).andThen next
  | .close behind, next => .close (behind.andThen next)

theorem andThen_andThen (work : Work α) (next : Except ExecutionError α → Work β)
    (last : Except ExecutionError β → Work γ) :
    (work.andThen next).andThen last = work.andThen fun outcome => (next outcome).andThen last := by
  induction work with
  | finish outcome => rfl
  | act change behind ih => exact congrArg (Work.act change) (funext ih)
  | call site name arguments behind ih =>
      exact congrArg (Work.call site name arguments) (funext ih)
  | includeDocument site name behind ih =>
      exact congrArg (Work.includeDocument site name) (funext ih)
  | close behind ih => exact congrArg Work.close ih

theorem andThen_finish (work : Work α) : work.andThen .finish = work := by
  induction work with
  | finish outcome => rfl
  | act change behind ih => exact congrArg (Work.act change) (funext ih)
  | call site name arguments behind ih =>
      exact congrArg (Work.call site name arguments) (funext ih)
  | includeDocument site name behind ih =>
      exact congrArg (Work.includeDocument site name) (funext ih)
  | close behind ih => exact congrArg Work.close ih

instance : Monad Work where
  pure value := .finish (.ok value)
  bind work next := work.andThen fun outcome =>
    match outcome with
    | .ok value => next value
    | .error error => .finish (.error error)

/-- An operation of the host as one change of its state. -/
def lift (action : HostM ExecutionError α) : Work α :=
  .act (fun world => (action.eval world).2) fun world => .finish (action.eval world).1

/-- Rephrase the failure of some work. -/
def convert (rephrase : ExecutionError → ExecutionError) (work : Work α) : Work α :=
  work.andThen fun outcome => .finish (outcome.mapError rephrase)

/-- Change the state behind some work, however it has ended. -/
def tidied (tidy : World → World) (work : Work α) : Work α :=
  work.andThen fun outcome => .act tidy fun _ => .finish outcome

/-- Change the state in front of some work, and again behind it with regard to the state there
was at first. -/
def between (prepare : World → World) (tidy : (first behind : World) → World) (work : Work α) :
    Work α :=
  .act prepare fun first => work.tidied (tidy first)

/-- Work that is done while more is held on its behalf. -/
def keeping (more : Holdings) : Work α → Work α :=
  between (·.holdingMore more) fun first behind =>
    World.releaseUnheld { behind with holdings := first.holdings }

/-- Work that is done while a context is current. -/
def withCurrent (context : ContextId) : Work α → Work α :=
  between (·.entering context) fun first behind => behind.leaving first

/-- Work that is done while a container is installed. -/
def withContainer (name : String) (container : Option Service) (context : ContextId)
    (work : Work α) : Work α := do
  match container with
  | none => work
  | some container => do
      let previous ← lift (inContext context (Context.setService name container))
      work.tidied fun world => ((restoreContainer name previous context).eval world).2

/-- Work that is bracketed by a controller. -/
def withController (controller : Option Controller) (context : ContextId) (work : Work α) :
    Work α := do
  match controller with
  | none => work
  | some controller => do
      lift (controller.opening context)
      work.tidied fun world => ((controller.closing context).run world).2

end Work

namespace Site

variable {α : Type}

/-- Serve a request that is no include. -/
def serve (site : Site) (request : Request) : HostM ExecutionError request.Reply :=
  serveRequest (fun _ _ _ => pure ()) site.executable site.context request

/-- What a script does. -/
def script (site : Site) : Script α → Work α
  | .done outcome => .finish outcome
  | .ask (.includeDocument name) next =>
      .includeDocument site name fun outcome => site.script (next outcome)
  | .ask request next => (Work.lift (site.serve request)).andThen fun reply =>
      site.script (next reply)

open Mini (Statement Ending)

/-- What a statement does: a call is a call, everything else is a script. -/
def statement (site : Site) (arguments : List Json) : Statement → Work Ending
  | .call name values => do
      let values ← site.script (Mini.evaluateAll arguments values)
      let _ ← Work.call site name values .finish
      pure .completed
  | plain => site.script (Mini.step (fun _ _ => pure .null) arguments plain)

/-- What statements do, up to the first that returns. -/
def statements (site : Site) (arguments : List Json) : List Statement → Work Ending
  | [] => pure .completed
  | first :: rest => do
      match ← site.statement arguments first with
      | .returned value => pure (.returned value)
      | .completed => site.statements arguments rest

/-- What a call does when it has begun. -/
def entryPoint (site : Site) (name : String) (arguments : List Json) : Work Json := do
  match ← site.script (Script.request (.findService (Mini.routineServiceName name))) with
  | some (.routine _ body) => do
      match ← site.statements arguments body with
      | .returned value => pure value
      | .completed => pure .null
  | _ => site.script (Mini.failWith (.noEntryPoint name))

/-- What the program of a text does. -/
def program (site : Site) (fragment : Fragment) : Work Unit :=
  match Mini.statementsOf fragment with
  | .ok statements => do
      let _ ← site.statements [] statements
      pure ()
  | .error error => .finish (.error (.ofPreparation error))

/-- What the segments of a document do. -/
def walk (site : Site) (documentName : String) : List Segment → Work Unit
  | [] => pure ()
  | segment :: rest => do
      match segment with
      | .literal text position =>
          (Work.lift (site.serve (.write .output text))).convert fun error =>
            error.passedThrough ⟨documentName, position⟩
      | .program text _ position adapter _ => do
          Work.lift (inContext site.context (Context.addAdapter adapter))
          (site.program ⟨text, ⟨documentName, position⟩, true⟩).convert fun error =>
            error.passedThrough ⟨documentName, position⟩
      site.walk documentName rest

/-- What the execution of a document does. -/
def execution (site : Site) (container : Option Service) (controller : Option Controller) :
    Work Unit := do
  let world ← Work.lift get
  if (world.contexts.get site.context).released then .finish (.error (.ofContext .released))
  else Work.withCurrent site.context do
    let world ← Work.lift get
    let document := world.executables.get site.executable
    let frozen := (world.contexts.get site.context).frozen
    Work.withContainer document.setting.options.containerService
      (if frozen then none else container) site.context do
        Work.withController (if frozen then none else controller) site.context do
          site.walk document.documentName document.segments
    Work.lift (noteUse site.executable)

/-- What an include does when it has begun. -/
def inclusion (site : Site) (name : String) : Work Unit := do
  let world ← Work.lift get
  let document := world.executables.get site.executable
  if !document.setting.sourced || world.source.isNone then
    .finish (.error (.ofParsing (.needsSource name)))
  else do
    let setting : Setting :=
      { document.setting with options := document.setting.options.forIncludes }
    let included ← Work.lift ((obtainExecutable setting name).convert ExecutionError.ofParsing)
    Work.keeping { executables := [included] } do
      Work.lift (recordDependency document name)
      Site.execution { site with executable := included } none none

/-- What it takes to run an entry point of the adapter that ran last, if that is Mini. -/
def entry (site : Site) (name : String) (arguments : List Json) : Work Json := do
  match ← Work.lift (inContext site.context Context.lastAdapter?) with
  | none => .finish (.error (.ofContext .noAdapter))
  | some _ => Work.withCurrent site.context (.call site name arguments .finish)

end Site

/-- What it takes to enter a document under a key. -/
def entering (executable : ExecutableId) (key entry : String) (arguments : List Json) :
    Work Json := do
  let world ← Work.lift get
  match (world.executables.get executable).enterable.get? key with
  | none => .finish (.error (.ofContext (.notEnterable key)))
  | some context =>
      if (world.contexts.get context).enterableFor ≠ some executable then
        .finish (.error (.ofContext (.foreignExecutable key)))
      else do
        let value ← Site.entry ⟨executable, context⟩ entry arguments
        Work.lift (noteUse executable)
        pure value

end DocumentHost
