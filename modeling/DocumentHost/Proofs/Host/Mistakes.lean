import DocumentHost.Proofs.Host.Checking
import DocumentHost.Proofs.Host.Failing
import DocumentHost.Proofs.Mini.Faults

/-!
# Where mistakes come from

When a run fails because of a mistake in a text, the segment that has failed first was compiled
from that text.  So no run fails because of a mistake in the segments of a document of which all
texts are programs.
-/

namespace DocumentHost

open World Script ExecutionError

/-! ## Scripts -/

section Scripts

variable {levels : Nat} {site : Site} {world : World} {error : ExecutionError}

/-- What is no include fails with an error of the context only. -/
theorem exists_contextError {request : Request} (noInclude : ∀ name, request ≠ .includeDocument name)
    (failed : ((site.serveWithin levels request).eval world).1 = .error error) :
    ∃ reason, error = .ofContext reason := by
  have converted {α : Type} {action : HostM ContextError α}
      (failed : ((action.convert ExecutionError.ofContext).eval world).1 = .error error) :
      ∃ reason, error = .ofContext reason := by
    rw [HostM.eval_convert] at failed
    obtain ⟨reason, -, same⟩ := Outcome.mapError_eq_error_iff.1 failed
    exact ⟨reason, same⟩
  cases request with
  | includeDocument name => exact absurd rfl (noInclude name)
  | write | readAttribute | setAttribute | removeAttribute | findService | setService
  | removeService | freeze | release => exact converted failed
  | readGlobal | setGlobal | removeGlobal | adapterName | isCurrent | note => cases failed

/-- A script that fails does so of its own accord or passes on what a request has failed with. -/
theorem outcome_of_raises {raised : ExecutionError → Prop} {script : Script Unit}
    (raises : Raises raised script)
    (failed : ((runScript (site.serveWithin levels) script).eval world).1 = .error error) :
    raised error ∨ ∃ request between, Comes (site.serveWithin levels) world script request between ∧
      ((site.serveWithin levels request).eval between).1 = .error error := by
  induction raises generalizing world with
  | done value => cases failed
  | fail isRaised =>
      cases failed
      exact .inl isRaised
  | @ask request next stops _ ih =>
      rw [eval_runScript_ask] at failed
      rcases served : (site.serveWithin levels request).eval world with ⟨failure | reply, between⟩
      · rw [served, stops] at failed
        cases failed
        exact .inr ⟨request, world, .here world request next, congrArg Prod.fst served⟩
      · rw [served] at failed
        refine (ih reply failed).imp_right ?_
        rintro ⟨other, behind, comes, raised⟩
        refine ⟨other, behind, .later ?_, raised⟩
        rw [served]
        exact comes

end Scripts

/-! ## Failures -/

/-- A segment with a program that can end, of its own accord, with an error that has a cause. -/
def Segment.Mistakable : Segment → Prop
  | .literal _ _ => False
  | .program _ _ _ _ body => ¬Raises Causeless body.run

/-- A failure that was raised in such a segment, by its program. -/
def Failure.ByMistake (failure : Failure) : Prop :=
  ∃ level, failure.stack.head? = some level ∧ level.segment.Mistakable

/-- In an activity a failure by a mistake comes from such a segment, unless the activity is the
program itself. -/
def Activity.Blames : Activity → Failure → Prop
  | .script _ body, failure =>
      (failure.stack = [] ∧ ¬Raises Causeless body) ∨ failure.ByMistake
  | .walk _ _, failure | .including _ _, failure => failure.ByMistake

/-- By induction on the way of the failure. -/
theorem Fails.blames {levels : Nat} {activity : Activity} {world : World} {failure : Failure}
    {mistake : PreparationError} (fails : Fails levels activity world failure)
    (cause : failure.original.cause = some (.preparation mistake)) : activity.Blames failure := by
  induction fails with
  | @own levels site script world error ended fresh =>
      refine .inl ⟨rfl, fun raises => ?_⟩
      rcases outcome_of_raises raises ended with causeless | ⟨request, between, comes, failed⟩
      · rw [causeless] at cause
        cases cause
      by_cases isInclude : ∃ name, request = .includeDocument name
      · obtain ⟨name, rfl⟩ := isInclude
        exact fresh name between comes failed
      · obtain ⟨reason, rfl⟩ := exists_contextError (fun name isName => isInclude ⟨name, isName⟩)
          failed
        cases cause
  | passedOn _ _ _ ih => exact .inr (ih cause)
  | @program _ _ document _ _ text tag position adapter body _ _ _ _ _ _ _ _ ih =>
      rcases ih cause with ⟨inside, mistakable⟩ | ⟨level, first, mistakable⟩
      · refine ⟨⟨document, .program text tag position adapter body⟩, ?_, mistakable⟩
        rw [Failure.stack_through, inside]
        rfl
      · refine ⟨level, ?_, mistakable⟩
        rw [Failure.stack_through, List.head?_append, first]
        rfl
  | inside _ _ _ _ _ _ _ ih => exact ih cause
  | literal | unbegun | tooDeep | sourceless | unobtained | closed => cases cause

/-- A program that has been compiled from a program text has no such segment. -/
theorem raises_programOf {fragment : Fragment} (parses : Mini.Parses fragment) :
    Raises Causeless (Mini.programOf fragment).run := by
  obtain ⟨statements, parsed⟩ := parses
  have run : (Mini.programOf fragment).run = Mini.runProgram statements := by
    rw [Mini.programOf, Mini.statementsOf, parsed]
    rfl
  rw [run]
  exact Mini.runProgram_raises statements

theorem Executable.Sound.not_mistakable {executable : Executable} (sound : executable.Sound)
    {segment : Segment} (member : segment ∈ executable.segments) : ¬segment.Mistakable := by
  cases segment with
  | literal => exact id
  | program text tag position adapter body =>
      obtain ⟨isScriptlet, rfl⟩ := sound.written _ member
      have parses : Mini.Parses ⟨text, ⟨executable.documentName, position⟩, true⟩ :=
        sound.parses _ (List.mem_filterMap.2 ⟨_, member, rfl⟩)
      exact not_not_intro (raises_programOf parses)

/-! ## Executions -/

/-- A run of an executable fails, and the failure can be followed to where it was raised. -/
def World.FailsWith (world : World) (executable : ExecutableId) (context : ContextId)
    (container : Option Service) (controller : Option Controller) (failure : Failure) : Prop :=
  ∃ started, Begins executable context container controller world started ∧
    Fails (includeLimit + 1) (.ofExecution world executable context) started failure

/-- When a run of an executable fails because of a mistake, and not before its first segment, it
can be followed to where it was raised, and that is in none of these segments. -/
def World.Spares (world : World) (executable : ExecutableId) (segments : List Segment) : Prop :=
  ∀ context container controller error mistake,
    ((execute executable context container controller).eval world).1 = .error error →
    error.cause = some (.preparation mistake) →
    (∃ present, controller = some present ∧
      ((present.opening context).eval (world.begun executable context container)).1 =
        .error error) ∨
    (∃ failure, world.FailsWith executable context container controller failure ∧
        failure.error = error) ∧
      ∀ failure, world.FailsWith executable context container controller failure →
        failure.error = error →
        ∃ level, failure.stack.head? = some level ∧ level.segment ∉ segments

/-- Segments without mistakes are none where a run fails by a mistake. -/
theorem World.spares {world : World} {executable : ExecutableId} {segments : List Segment}
    (faultless : ∀ segment ∈ segments, ¬segment.Mistakable) :
    world.Spares executable segments := by
  intro context container controller error mistake failed cause
  rcases outcome_execute_cases failed with ⟨-, rfl⟩ | ⟨present, given, -, refused⟩ |
    ⟨started, begins, walked⟩
  · cases cause
  · exact .inl ⟨present, given, refused⟩
  · refine .inr ⟨?_, ?_⟩
    · obtain ⟨failure, fails, reported⟩ := outcome_eq_error_iff.1 walked
      exact ⟨failure, ⟨started, begins, fails⟩, reported⟩
    · rintro failure ⟨other, -, fails⟩ rfl
      obtain ⟨level, first, mistakable⟩ := fails.blames cause
      exact ⟨level, first, fun member => faultless _ member mistakable⟩

end DocumentHost
