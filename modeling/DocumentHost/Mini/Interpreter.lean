import DocumentHost.Json.Printer
import DocumentHost.Script

/-!
# Running Mini programs

The meaning of a Mini program is a script.  Entry points are services under
names of their own; a call looks up the service and runs its body with fresh
arguments.  Calls nest up to a limit, so every script is finite.
-/

namespace DocumentHost.Mini

/-- What goes wrong in a running program. -/
inductive Fault where
  | undefinedVariable (name : String)
  | overflow
  | callDepth (name : String)
  | noEntryPoint (name : String)
deriving DecidableEq, Repr

/-- The wording of a fault. -/
def Fault.message : Fault → String
  | .undefinedVariable name => "undefined variable '" ++ name ++ "'"
  | .overflow => "integer overflow"
  | .callDepth name => "call depth exceeded while calling '" ++ name ++ "'"
  | .noEntryPoint name => "no entry point '" ++ name ++ "'"

/-- End with a fault. -/
def failWith {α : Type} (fault : Fault) : Script α :=
  .fail (.ofDescription fault.message)

/-- The name of the service that holds an entry point. -/
def routineServiceName (name : String) : String :=
  "mini.routine." ++ name

/-- The most calls that are active at one time. -/
def callLimit : Nat := 64

/-- The sum of two values.  Integers are added exactly or not at all; other values
are joined as texts. -/
def add (left right : Json) : Except Fault Json :=
  match left.integer?, right.integer? with
  | some first, some second =>
      if Json.inIntegerRange (first + second) then .ok (.integer (first + second))
      else .error .overflow
  | _, _ => .ok (.text (left.display ++ right.display))

/-- The value of an expression. -/
def evaluate (arguments : List Json) : Expression → Script Json
  | .text value => pure (.text value)
  | .integer value => pure (.integer value)
  | .argument index => pure (arguments.getD index .null)
  | .named name => do
      match ← Script.request (.readAttribute name) with
      | some value => pure value
      | none =>
          match ← Script.request (.readGlobal name) with
          | some value => pure value
          | none => failWith (.undefinedVariable name)
  | .sum left right => do
      let first ← evaluate arguments left
      let second ← evaluate arguments right
      match add first second with
      | .ok value => pure value
      | .error fault => failWith fault

/-- The values of a list of expressions, from left to right. -/
def evaluateAll (arguments : List Json) : List Expression → Script (List Json)
  | [] => pure []
  | expression :: rest => do
      let value ← evaluate arguments expression
      let values ← evaluateAll arguments rest
      pure (value :: values)

/-- How a list of statements ends. -/
inductive Ending where
  | completed
  | returned (value : Json)

/-- Run one statement.  `invoke` runs an entry point. -/
def step (invoke : String → List Json → Script Json) (arguments : List Json) :
    Statement → Script Ending
  | .print value => do
      let value ← evaluate arguments value
      Script.request (.write .output value.display)
      pure .completed
  | .printError value => do
      let value ← evaluate arguments value
      Script.request (.write .error value.display)
      pure .completed
  | .assign name value => do
      let value ← evaluate arguments value
      let _ ← Script.request (.setAttribute name value)
      pure .completed
  | .assignGlobal name value => do
      let value ← evaluate arguments value
      let _ ← Script.request (.setGlobal name value)
      pure .completed
  | .includeDocument document => do
      let name ← evaluate arguments document
      Script.request (.includeDocument name.display)
      pure .completed
  | .define name body => do
      let _ ← Script.request (.setService (routineServiceName name) (.routine name body))
      pure .completed
  | .call name values => do
      let values ← evaluateAll arguments values
      let _ ← invoke name values
      pure .completed
  | .giveBack value => do
      let value ← evaluate arguments value
      pure (.returned value)

/-- Run statements in order, up to the first that returns. -/
def runStatements (invoke : String → List Json → Script Json) (arguments : List Json) :
    List Statement → Script Ending
  | [] => pure .completed
  | statement :: rest => do
      match ← step invoke arguments statement with
      | .returned value => pure (.returned value)
      | .completed => runStatements invoke arguments rest

/-- Run an entry point while `remaining` further calls may be active. -/
def call : (remaining : Nat) → String → List Json → Script Json
  | 0, name, _ => failWith (.callDepth name)
  | remaining + 1, name, arguments => do
      match ← Script.request (.findService (routineServiceName name)) with
      | some (.routine _ body) =>
          match ← runStatements (call remaining) arguments body with
          | .returned value => pure value
          | .completed => pure .null
      | _ => failWith (.noEntryPoint name)

/-- Run an entry point from outside. -/
def enter (name : String) (arguments : List Json) : Script Json :=
  call callLimit name arguments

/-- Run a whole program.  A return at its top level ends it. -/
def runProgram (statements : List Statement) : Script Unit := do
  let _ ← runStatements (call callLimit) [] statements
  pure ()

end DocumentHost.Mini
