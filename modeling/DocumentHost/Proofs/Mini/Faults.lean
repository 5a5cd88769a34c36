import DocumentHost.Mini.Interpreter
import DocumentHost.Proofs.Script

/-!
# What Mini programs fail with

A Mini program passes on the failure of a request, or it ends with a fault of its own.  Such a
fault has no cause: it is not a mistake in a text, nor anything else that has gone wrong before.
-/

namespace DocumentHost

namespace Script

variable {α β : Type} {raised : ExecutionError → Prop}

/-- Of its own accord a script ends with errors of a kind only; it ends with the failure of a
request that fails. -/
inductive Raises (raised : ExecutionError → Prop) : Script α → Prop where
  | done (value : α) : Raises raised (.done (.ok value))
  | fail {error : ExecutionError} (isRaised : raised error) : Raises raised (.done (.error error))
  | ask {request : Request} {next : Except ExecutionError request.Reply → Script α}
      (stops : ∀ error, next (.error error) = .done (.error error))
      (further : ∀ reply, Raises raised (next (.ok reply))) : Raises raised (.ask request next)

namespace Raises

theorem pure (value : α) : Raises raised (pure value : Script α) :=
  .done value

theorem request (wanted : Request) : Raises raised (request wanted) :=
  .ask (fun _ => rfl) fun reply => .done reply

/-- By induction on the first script. -/
theorem bind {script : Script α} {next : α → Script β} (first : Raises raised script)
    (further : ∀ value, Raises raised (next value)) : Raises raised (script >>= next) := by
  change Raises raised (script.bind next)
  induction first with
  | done value => exact further value
  | fail isRaised => exact .fail isRaised
  | ask stops _ ih =>
      refine .ask (fun error => ?_) ih
      rw [stops]
      rfl

end Raises

end Script

/-- An error that nothing else has led to. -/
def ExecutionError.Causeless (error : ExecutionError) : Prop :=
  error.cause = none

namespace Mini

open Script ExecutionError

variable {α : Type}

theorem failWith_raises (fault : Fault) : Raises Causeless (failWith fault : Script α) :=
  .fail rfl

/-- By induction on the expression. -/
theorem evaluate_raises (arguments : List Json) (expression : Expression) :
    Raises Causeless (evaluate arguments expression) := by
  induction expression with
  | text | integer | argument => exact .pure _
  | named name =>
      rw [evaluate]
      refine Raises.bind (.request (.readAttribute name)) fun held => ?_
      cases held with
      | some value => exact .pure value
      | none =>
          refine Raises.bind (.request (.readGlobal name)) fun found => ?_
          cases found with
          | some value => exact .pure value
          | none => exact failWith_raises _
  | sum left right raisesLeft raisesRight =>
      rw [evaluate]
      refine Raises.bind raisesLeft fun first => Raises.bind raisesRight fun second => ?_
      cases add first second with
      | ok value => exact .pure value
      | error fault => exact failWith_raises fault

theorem evaluateAll_raises (arguments : List Json) (expressions : List Expression) :
    Raises Causeless (evaluateAll arguments expressions) := by
  induction expressions with
  | nil => exact .pure _
  | cons expression rest ih =>
      rw [evaluateAll]
      exact Raises.bind (evaluate_raises arguments expression) fun value =>
        Raises.bind ih fun values => .pure _

section Statements

variable {invoke : String → List Json → Script Json}

theorem step_raises (invokes : ∀ name arguments, Raises Causeless (invoke name arguments))
    (arguments : List Json) (statement : Statement) :
    Raises Causeless (step invoke arguments statement) := by
  have evaluates := evaluate_raises arguments
  cases statement with
  | print value | printError value | assign name value | assignGlobal name value
  | includeDocument value =>
      exact Raises.bind (evaluates value) fun _ => Raises.bind (.request _) fun _ => .pure _
  | define name body => exact Raises.bind (.request (.setService _ _)) fun _ => .pure _
  | call name values =>
      exact Raises.bind (evaluateAll_raises arguments values) fun values =>
        Raises.bind (invokes name values) fun _ => .pure _
  | giveBack value => exact Raises.bind (evaluates value) fun _ => .pure _

theorem runStatements_raises
    (invokes : ∀ name arguments, Raises Causeless (invoke name arguments))
    (arguments : List Json) (statements : List Statement) :
    Raises Causeless (runStatements invoke arguments statements) := by
  induction statements with
  | nil => exact .pure _
  | cons statement rest ih =>
      rw [runStatements]
      refine Raises.bind (step_raises invokes arguments statement) fun ending => ?_
      cases ending with
      | completed => exact ih
      | returned value => exact .pure _

end Statements

/-- By induction on the calls that may still be made. -/
theorem call_raises (remaining : Nat) (name : String) (arguments : List Json) :
    Raises Causeless (call remaining name arguments) := by
  induction remaining generalizing name arguments with
  | zero => exact failWith_raises _
  | succ remaining ih =>
      rw [call]
      refine Raises.bind (.request (.findService _)) fun service => ?_
      split
      · refine Raises.bind (runStatements_raises ih arguments _) fun ending => ?_
        cases ending with
        | completed => exact .pure _
        | returned value => exact .pure _
      · exact failWith_raises _

/-- Whatever a program does, what it ends with of its own accord is a fault without a cause. -/
theorem runProgram_raises (statements : List Statement) :
    Raises Causeless (runProgram statements) := by
  rw [runProgram]
  exact Raises.bind (runStatements_raises (call_raises callLimit) [] statements) fun _ => .pure _

end Mini

end DocumentHost
