import DocumentHost.Error
import DocumentHost.Json.Value
import DocumentHost.Mini.Program

/-!
# Scripts

A running program acts on its surroundings only by requests: it writes, reads
and changes attributes and services, includes documents, freezes or releases
its context.  A script is a program seen this way: it ends with an outcome, or
asks for something and goes on with the answer, which may be a failure.  What
the requests mean is said by whoever serves them.
-/

namespace DocumentHost

/-- An object that running code finds by name: a text, or an entry point that was
defined in Mini. -/
inductive Service where
  | text (value : String)
  | routine (name : String) (body : List Mini.Statement)
deriving Repr, Inhabited

/-- The text of a service, if it is one. -/
def Service.text? : Service → Option String
  | .text value => some value
  | .routine _ _ => none

/-- The two outputs of a context. -/
inductive Stream where
  | output
  | error
deriving DecidableEq, Repr

/-- What a running program may ask for. -/
inductive Request where
  | write (stream : Stream) (text : String)
  | readAttribute (name : String)
  | setAttribute (name : String) (value : Json)
  | removeAttribute (name : String)
  | findService (name : String)
  | setService (name : String) (service : Service)
  | removeService (name : String)
  | readGlobal (name : String)
  | setGlobal (name : String) (value : Json)
  | removeGlobal (name : String)
  | includeDocument (name : String)
  | freeze
  | release
  /-- The name of the adapter that answers to a tag. -/
  | adapterName (tag : String)
  /-- Whether the context of the program is the current one. -/
  | isCurrent
  | note (text : String)

/-- The answer to a request: for changes what was there before. -/
abbrev Request.Reply : Request → Type
  | .readAttribute _ | .setAttribute _ _ | .removeAttribute _ => Option Json
  | .readGlobal _ | .setGlobal _ _ | .removeGlobal _ => Option Json
  | .findService _ | .setService _ _ | .removeService _ => Option Service
  | .adapterName _ => Option String
  | .isCurrent => Bool
  | .write _ _ | .includeDocument _ | .freeze | .release | .note _ => Unit

/-- A program that acts by requests. -/
inductive Script (α : Type) where
  | done (outcome : Except ExecutionError α)
  | ask (request : Request) (next : Except ExecutionError request.Reply → Script α)

namespace Script

/-- Go on with the value of a script; a failure ends the whole. -/
def bind {α β : Type} : Script α → (α → Script β) → Script β
  | .done (.ok value), next => next value
  | .done (.error error), _ => .done (.error error)
  | .ask request continuation, next =>
      .ask request fun reply => (continuation reply).bind next

instance : Monad Script where
  pure value := .done (.ok value)
  bind := Script.bind

/-- End with a failure. -/
def fail {α : Type} (error : ExecutionError) : Script α :=
  .done (.error error)

/-- Make a request; a failure of it ends the script. -/
def request (wanted : Request) : Script wanted.Reply :=
  .ask wanted .done

instance {α : Type} : Inhabited (Script α) := ⟨fail default⟩

/-- Carry out a script, each request being served in turn. -/
def run {m : Type → Type} [Monad m]
    (serve : (wanted : Request) → m (Except ExecutionError wanted.Reply)) {α : Type} :
    Script α → m (Except ExecutionError α)
  | .done outcome => pure outcome
  | .ask wanted next => do
      let reply ← serve wanted
      (next reply).run serve

end Script

end DocumentHost
