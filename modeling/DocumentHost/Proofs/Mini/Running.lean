import DocumentHost.Mini.Interpreter
import DocumentHost.Proofs.Script

/-!
# How Mini programs run

Mini programs make a few kinds of requests only: they never look at adapters, and they
neither freeze nor release their context.  Programs without a return at their top level
run one after the other as if they were one program.
-/

namespace DocumentHost.Mini

open Script

/-! ## Requests -/

/-- The requests that Mini programs make. -/
inductive Makes : Request → Prop where
  | write (stream : Stream) (text : String) : Makes (.write stream text)
  | readAttribute (name : String) : Makes (.readAttribute name)
  | setAttribute (name : String) (value : Json) : Makes (.setAttribute name value)
  | readGlobal (name : String) : Makes (.readGlobal name)
  | setGlobal (name : String) (value : Json) : Makes (.setGlobal name value)
  | findService (name : String) : Makes (.findService name)
  | setService (name : String) (service : Service) : Makes (.setService name service)
  | includeDocument (name : String) : Makes (.includeDocument name)

/-- Requests that only look. -/
inductive Looks : Request → Prop where
  | readAttribute (name : String) : Looks (.readAttribute name)
  | readGlobal (name : String) : Looks (.readGlobal name)

/-- Working out an expression changes nothing. -/
theorem evaluate_looks (arguments : List Json) (expression : Expression) :
    Asks Looks (evaluate arguments expression) := by
  induction expression with
  | text | integer | argument => exact .pure _
  | named name =>
      rw [evaluate]
      apply Asks.bind (.request (.readAttribute name))
      intro held
      cases held with
      | some value => exact .pure value
      | none =>
          apply Asks.bind (.request (.readGlobal name))
          intro found
          cases found with
          | some value => exact .pure value
          | none => exact .fail _
  | sum left right looksLeft looksRight =>
      rw [evaluate]
      apply Asks.bind looksLeft
      intro first
      apply Asks.bind looksRight
      intro second
      cases add first second with
      | ok value => exact .pure value
      | error fault => exact .fail _

theorem evaluate_asks (arguments : List Json) (expression : Expression) :
    Asks Makes (evaluate arguments expression) := by
  refine (evaluate_looks arguments expression).mono fun request looks => ?_
  cases looks with
  | readAttribute name => exact .readAttribute name
  | readGlobal name => exact .readGlobal name

theorem evaluateAll_asks (arguments : List Json) (expressions : List Expression) :
    Asks Makes (evaluateAll arguments expressions) := by
  induction expressions with
  | nil => exact .pure _
  | cons expression rest ih =>
      rw [evaluateAll]
      apply Asks.bind (evaluate_asks arguments expression)
      intro value
      apply Asks.bind ih
      intro values
      exact .pure _

theorem step_asks {invoke : String → List Json → Script Json}
    (invokeAsks : ∀ name arguments, Asks Makes (invoke name arguments)) (arguments : List Json)
    (statement : Statement) : Asks Makes (step invoke arguments statement) := by
  cases statement with
  | print value =>
      apply Asks.bind (evaluate_asks arguments value)
      intro value
      exact Asks.bind (.request (.write _ _)) fun _ => .pure _
  | printError value =>
      apply Asks.bind (evaluate_asks arguments value)
      intro value
      exact Asks.bind (.request (.write _ _)) fun _ => .pure _
  | assign name value =>
      apply Asks.bind (evaluate_asks arguments value)
      intro value
      exact Asks.bind (.request (.setAttribute name value)) fun _ => .pure _
  | assignGlobal name value =>
      apply Asks.bind (evaluate_asks arguments value)
      intro value
      exact Asks.bind (.request (.setGlobal name value)) fun _ => .pure _
  | includeDocument document =>
      apply Asks.bind (evaluate_asks arguments document)
      intro name
      exact Asks.bind (.request (.includeDocument _)) fun _ => .pure _
  | define name body => exact Asks.bind (.request (.setService _ _)) fun _ => .pure _
  | call name values =>
      apply Asks.bind (evaluateAll_asks arguments values)
      intro values
      exact Asks.bind (invokeAsks name values) fun _ => .pure _
  | giveBack value => exact Asks.bind (evaluate_asks arguments value) fun _ => .pure _

theorem runStatements_asks {invoke : String → List Json → Script Json}
    (invokeAsks : ∀ name arguments, Asks Makes (invoke name arguments)) (arguments : List Json)
    (statements : List Statement) : Asks Makes (runStatements invoke arguments statements) := by
  induction statements with
  | nil => exact .pure _
  | cons statement rest ih =>
      rw [runStatements]
      apply Asks.bind (step_asks invokeAsks arguments statement)
      intro ending
      cases ending with
      | completed => exact ih
      | returned value => exact .pure _

theorem call_asks (remaining : Nat) (name : String) (arguments : List Json) :
    Asks Makes (call remaining name arguments) := by
  induction remaining generalizing name arguments with
  | zero => exact .fail _
  | succ remaining ih =>
      rw [call]
      apply Asks.bind (.request (.findService _))
      intro service
      split
      · apply Asks.bind (runStatements_asks ih arguments _)
        intro ending
        cases ending with
        | completed => exact .pure _
        | returned value => exact .pure _
      · exact .fail _

theorem runProgram_asks (statements : List Statement) : Asks Makes (runProgram statements) := by
  rw [runProgram]
  apply Asks.bind (runStatements_asks (call_asks callLimit) [] statements)
  intro ending
  exact .pure _

/-! ## Programs one after the other -/

/-- A program that does not return at its top level. -/
def NeverReturns (statements : List Statement) : Prop :=
  ∀ value, Statement.giveBack value ∉ statements

theorem NeverReturns.append {statements others : List Statement}
    (first : NeverReturns statements) (second : NeverReturns others) :
    NeverReturns (statements ++ others) := by
  intro value member
  rcases List.mem_append.1 member with inFirst | inSecond
  · exact first value inFirst
  · exact second value inSecond

theorem runStatements_append (invoke : String → List Json → Script Json)
    (arguments : List Json) (statements others : List Statement) :
    runStatements invoke arguments (statements ++ others) =
      runStatements invoke arguments statements >>= fun ending =>
        match ending with
        | .returned value => pure (.returned value)
        | .completed => runStatements invoke arguments others := by
  induction statements with
  | nil => rfl
  | cons statement rest ih =>
      rw [List.cons_append, runStatements, runStatements, bind_assoc]
      congr 1
      funext ending
      cases ending with
      | completed => exact ih
      | returned value => rfl

/-- A statement that does not return completes. -/
theorem step_eq_completed (invoke : String → List Json → Script Json) (arguments : List Json)
    {statement : Statement} (noReturn : ∀ value, statement ≠ .giveBack value) :
    step invoke arguments statement >>= (fun _ => pure .completed) =
      step invoke arguments statement := by
  cases statement with
  | giveBack value => exact absurd rfl (noReturn value)
  | _ => simp only [step, bind_assoc, pure_bind]

theorem runStatements_eq_completed (invoke : String → List Json → Script Json)
    (arguments : List Json) {statements : List Statement} (never : NeverReturns statements) :
    runStatements invoke arguments statements >>= (fun _ => pure .completed) =
      runStatements invoke arguments statements := by
  induction statements with
  | nil => rfl
  | cons statement rest ih =>
      have noReturn : ∀ value, statement ≠ .giveBack value := by
        rintro value rfl
        exact never value (by simp)
      have restNever : NeverReturns rest := fun value member => never value (by simp [member])
      rw [runStatements, ← step_eq_completed invoke arguments noReturn]
      simp only [bind_assoc, pure_bind]
      rw [ih restNever]

/-- Two programs without a return at the top level of the first run as one. -/
theorem runProgram_append {statements : List Statement} (never : NeverReturns statements)
    (others : List Statement) :
    runProgram (statements ++ others) = runProgram statements >>= fun _ => runProgram others := by
  unfold runProgram
  rw [runStatements_append, ← runStatements_eq_completed _ _ never]
  simp only [bind_assoc, pure_bind]

/-- A program that prints a text writes it. -/
theorem runProgram_print (text : String) :
    runProgram [.print (.text text)] = Script.request (.write .output text) := by
  simp only [runProgram, runStatements, step, evaluate, pure_bind, bind_assoc]
  exact bind_pure _

/-- A program that includes a document asks for it. -/
theorem runProgram_include (name : String) :
    runProgram [.includeDocument (.text name)] = Script.request (.includeDocument name) := by
  simp only [runProgram, runStatements, step, evaluate, pure_bind, bind_assoc]
  exact bind_pure _

end DocumentHost.Mini
