import DocumentHost.Proofs.Host.Mirroring
import DocumentHost.Proofs.Host.Obtaining
import DocumentHost.Proofs.Host.Stages
import DocumentHost.Proofs.Running.Documents

/-!
# Where a run has failed

A failure is traced from the run that reports it to the place where it was raised: through the
segment that has failed, the include that its program has passed on, the document included
there, and so on.  The documents on this way are those that were active when the failure
was raised, and the frames of the error name them with their segments, the innermost
first.  One frame is missing where a program could not begin because the context was
released.
-/

namespace DocumentHost

/-- A document that is being run, and the segment it has come to. -/
structure Level where
  document : Executable
  segment : Segment

/-- What the frame of a level says. -/
def Level.place (level : Level) : Place :=
  ⟨level.document.documentName, level.segment.position⟩

/-- A failure with the levels it has come through. -/
structure Failure where
  /-- The error as it was raised. -/
  original : ExecutionError
  /-- Whether a program has ended with it of its own accord. -/
  own : Bool := false
  /-- The level of a program that could not begin. -/
  unbegun : Option Level := none
  /-- The levels that have left a frame, the innermost first. -/
  levels : List Level := []

namespace Failure

/-- The documents that were active when the error was raised, the innermost first. -/
def stack (failure : Failure) : List Level :=
  failure.unbegun.toList ++ failure.levels

/-- The error as it is reported. -/
def error (failure : Failure) : ExecutionError :=
  { failure.original with
    frames := failure.original.frames ++ failure.levels.map Level.place }

/-- The failure when it has come through one more level. -/
def through (failure : Failure) (level : Level) : Failure :=
  { failure with levels := failure.levels ++ [level] }

theorem error_through (failure : Failure) (level : Level) :
    (failure.through level).error = failure.error.passedThrough level.place := by
  simp [error, through, ExecutionError.passedThrough]

theorem error_of_no_levels {failure : Failure} (inside : failure.levels = []) :
    failure.error = failure.original := by
  simp [error, inside]

theorem stack_through (failure : Failure) (level : Level) :
    (failure.through level).stack = failure.stack ++ [level] := by
  simp [stack, through]

end Failure

/-- In the course of a script a request is made in a state. -/
inductive Comes {α : Type} (serve : (request : Request) → HostM ExecutionError request.Reply) :
    World → Script α → Request → World → Prop where
  | here (world : World) (request : Request)
      (next : Except ExecutionError request.Reply → Script α) :
      Comes serve world (.ask request next) request world
  | later {world after : World} {first request : Request}
      {next : Except ExecutionError first.Reply → Script α}
      (further : Comes serve ((serve first).eval world).2 (next ((serve first).eval world).1)
        request after) :
      Comes serve world (.ask first next) request after

/-- How the programs of a document are run while some number of levels is left for includes. -/
def Site.runWithin (levels : Nat) (site : Site) (program : Program) : HostM ExecutionError Unit :=
  runScript (site.serveWithin levels) program.run

/-- What can fail in the course of a run. -/
inductive Activity where
  | script (site : Site) (body : Script Unit)
  | walk (site : Site) (document : Executable)
  | including (site : Site) (name : String)

/-- What is done in an activity while some number of levels is left for includes. -/
def Activity.operation (levels : Nat) : Activity → HostM ExecutionError Unit
  | .script site body => runScript (site.serveWithin levels) body
  | .walk site document => document.walk (site.runWithin levels) site.context
  | .including site name => includeWithin levels site.executable name site.context

namespace World

/-- The state within one more include. -/
def deeper (world : World) : World :=
  { world with includeDepth := world.includeDepth + 1 }

/-- What a document compiles its includes with. -/
def includeSetting (world : World) (executable : ExecutableId) : Setting :=
  { (world.executables.get executable).setting with
    options := (world.executables.get executable).setting.options.forIncludes }

/-- The state in which an obtained document has been recorded as a dependency. -/
def recording (world : World) (document : Executable) (name : String) (included : ExecutableId) :
    World :=
  ((recordDependency document name).eval (world.holdingMore { executables := [included] })).2

end World

/-- Failures of activities.  A program ends with an error of its own, or passes on that of an
include; a segment fails by a write or by its program; an include fails by itself, or by
the document it runs. -/
inductive Fails : Nat → Activity → World → Failure → Prop where
  | own {levels : Nat} {site : Site} {script : Script Unit} {world : World}
      {error : ExecutionError}
      (ended : ((runScript (site.serveWithin levels) script).eval world).1 = .error error)
      (fresh : ∀ name between,
        Comes (site.serveWithin levels) world script (.includeDocument name) between →
          ((includeWithin levels site.executable name site.context).eval between).1 ≠
            .error error) :
      Fails levels (.script site script) world { original := error, own := true }
  | passedOn {levels : Nat} {site : Site} {script : Script Unit} {world between : World}
      {name : String} {failure : Failure}
      (comes : Comes (site.serveWithin levels) world script (.includeDocument name) between)
      (fails : Fails levels (.including site name) between failure)
      (ended : ((runScript (site.serveWithin levels) script).eval world).1 =
        .error failure.error) :
      Fails levels (.script site script) world failure
  | literal {levels : Nat} {site : Site} {document : Executable} {front rest : List Segment}
      {text : String} {position : Position} {world between : World} {error : ContextError}
      (segments : document.segments = front ++ .literal text position :: rest)
      (walked : (walkSegments (site.runWithin levels) document.documentName site.context
        front).eval world = (.ok (), between))
      (refused : ((writeText site.context .output text).eval between).1 = .error error) :
      Fails levels (.walk site document) world
        { original := .ofContext error, levels := [⟨document, .literal text position⟩] }
  | program {levels : Nat} {site : Site} {document : Executable} {front rest : List Segment}
      {text tag : String} {position : Position} {adapter : AdapterId} {program : Program}
      {world between recorded : World} {failure : Failure}
      (segments : document.segments =
        front ++ .program text tag position adapter program :: rest)
      (walked : (walkSegments (site.runWithin levels) document.documentName site.context
        front).eval world = (.ok (), between))
      (begun : (inContext site.context (Context.addAdapter adapter)).eval between =
        (.ok (), recorded))
      (fails : Fails levels (.script site program.run) recorded failure) :
      Fails levels (.walk site document) world
        (failure.through ⟨document, .program text tag position adapter program⟩)
  | unbegun {levels : Nat} {site : Site} {document : Executable} {front rest : List Segment}
      {text tag : String} {position : Position} {adapter : AdapterId} {program : Program}
      {world between : World}
      (segments : document.segments =
        front ++ .program text tag position adapter program :: rest)
      (walked : (walkSegments (site.runWithin levels) document.documentName site.context
        front).eval world = (.ok (), between))
      (released : (between.contexts.get site.context).released = true) :
      Fails levels (.walk site document) world
        { original := .ofContext .released
          unbegun := some ⟨document, .program text tag position adapter program⟩ }
  | tooDeep {levels : Nat} {site : Site} {name : String} {world : World}
      (deep : levels = 0 ∨ includeLimit ≤ world.includeDepth) :
      Fails levels (.including site name) world
        { original := .ofDocument (.dependencyLoop name) }
  | sourceless {levels : Nat} {site : Site} {name : String} {world : World}
      (shallow : world.includeDepth < includeLimit)
      (missing : (world.executables.get site.executable).setting.sourced = false ∨
        world.source.isNone = true) :
      Fails (levels + 1) (.including site name) world
        { original := .ofParsing (.needsSource name) }
  | unobtained {levels : Nat} {site : Site} {name : String} {world : World} {error : ParsingError}
      (shallow : world.includeDepth < includeLimit)
      (sourced : (world.executables.get site.executable).setting.sourced = true)
      (source : world.source.isNone = false)
      (missed : ((obtainExecutable (world.includeSetting site.executable) name).eval
        world.deeper).1 = .error error) :
      Fails (levels + 1) (.including site name) world { original := .ofParsing error }
  | closed {levels : Nat} {site : Site} {name : String} {world between : World}
      {included : ExecutableId}
      (shallow : world.includeDepth < includeLimit)
      (sourced : (world.executables.get site.executable).setting.sourced = true)
      (source : world.source.isNone = false)
      (obtained : (obtainExecutable (world.includeSetting site.executable) name).eval
        world.deeper = (.ok included, between))
      (released : ((between.recording (world.executables.get site.executable) name
        included).contexts.get site.context).released = true) :
      Fails (levels + 1) (.including site name) world { original := .ofContext .released }
  | inside {levels : Nat} {site : Site} {name : String} {world between recorded : World}
      {included : ExecutableId} {failure : Failure}
      (shallow : world.includeDepth < includeLimit)
      (sourced : (world.executables.get site.executable).setting.sourced = true)
      (source : world.source.isNone = false)
      (obtained : (obtainExecutable (world.includeSetting site.executable) name).eval
        world.deeper = (.ok included, between))
      (records : between.recording (world.executables.get site.executable) name included =
        recorded)
      (unreleased : (recorded.contexts.get site.context).released = false)
      (fails : Fails levels (.walk ⟨included, site.context⟩ (recorded.executables.get included))
        (recorded.entering site.context) failure) :
      Fails (levels + 1) (.including site name) world failure

section Tracing

variable {levels : Nat} {site : Site} {document : Executable} {world : World} {failure : Failure}

/-! ## What a failure says -/

/-- A failure that no program has raised of its own accord was raised without frames. -/
theorem Fails.frames_original {activity : Activity} (fails : Fails levels activity world failure)
    (foreign : failure.own = false) : failure.original.frames = [] := by
  induction fails with
  | own => cases foreign
  | passedOn _ _ _ ih => exact ih foreign
  | program _ _ _ _ ih => exact ih foreign
  | inside _ _ _ _ _ _ _ ih => exact ih foreign
  | _ => rfl

/-- All levels stand at segments of their documents. -/
theorem Fails.mem_segments {activity : Activity} (fails : Fails levels activity world failure) :
    ∀ level ∈ failure.stack, level.segment ∈ level.document.segments := by
  induction fails with
  | own | tooDeep | sourceless | unobtained | closed => simp [Failure.stack]
  | passedOn _ _ _ ih => exact ih
  | inside _ _ _ _ _ _ _ ih => exact ih
  | literal segments => simp [Failure.stack, segments]
  | unbegun segments => simp [Failure.stack, segments]
  | program segments _ _ _ ih =>
      rw [Failure.stack_through]
      intro level member
      rcases List.mem_append.1 member with inner | outer
      · exact ih level inner
      · obtain rfl := List.mem_singleton.1 outer
        simp [segments]

/-- Only a program can find that it cannot begin, and that is because the context is released. -/
theorem Fails.unbegun_of_released {activity : Activity} {level : Level}
    (fails : Fails levels activity world failure) (unbegun : failure.unbegun = some level) :
    failure.original = .ofContext .released ∧ level.segment.isLiteral = false := by
  induction fails with
  | passedOn _ _ _ ih => exact ih unbegun
  | program _ _ _ _ ih => exact ih unbegun
  | inside _ _ _ _ _ _ _ ih => exact ih unbegun
  | unbegun =>
      obtain rfl := Option.some.inj unbegun
      exact ⟨rfl, rfl⟩
  | _ => cases unbegun

/-- The outermost level of a run is its document. -/
theorem Fails.exists_getLast? (fails : Fails levels (.walk site document) world failure) :
    ∃ segment, failure.stack.getLast? = some ⟨document, segment⟩ := by
  cases fails with
  | literal => exact ⟨_, rfl⟩
  | program => exact ⟨_, by rw [Failure.stack_through, List.getLast?_concat]⟩
  | unbegun => exact ⟨_, rfl⟩

/-! ## One segment -/

section Segments

variable {run : Program → HostM ExecutionError Unit} {documentName text tag : String}
  {context : ContextId} {position : Position} {adapter : AdapterId} {program : Program}
  {error : ExecutionError}

/-- A literal fails if it cannot be written. -/
theorem outcome_literal_eq_error_iff :
    ((runSegment run documentName context (.literal text position)).eval world).1 = .error error ↔
      ∃ refusal, ((writeText context .output text).eval world).1 = .error refusal ∧
        error = (ExecutionError.ofContext refusal).passedThrough ⟨documentName, position⟩ := by
  simp [runSegment, walkSegments, walkSegment, Outcome.mapError_eq_error_iff, Segment.position]

theorem eval_addAdapter_of_released (released : (world.contexts.get context).released = true)
    (adapter : AdapterId) :
    (inContext context (Context.addAdapter adapter)).eval world =
      (.error (.ofContext .released), world) := by
  have refused := Context.Operation.run_of_released released (.addAdapter adapter)
  change Context.addAdapter adapter (world.contexts.get context) = _ at refused
  rw [inContext, HostM.eval_convert, HostM.eval_onContext, refused]
  rfl

theorem exists_eval_addAdapter (unreleased : (world.contexts.get context).released = false)
    (adapter : AdapterId) :
    ∃ recorded, (inContext context (Context.addAdapter adapter)).eval world =
      (.ok (), recorded) := by
  have permitted := Context.Operation.run_of_unreleased unreleased
    (rfl : (Context.Operation.addAdapter adapter).mutates = false)
  change Context.addAdapter adapter (world.contexts.get context) = _ at permitted
  rw [inContext, HostM.eval_convert, HostM.eval_onContext, permitted]
  exact ⟨_, rfl⟩

/-- A program fails without a frame if the context is released, and otherwise where it is run. -/
theorem outcome_program_eq_error_iff :
    ((runSegment run documentName context
      (.program text tag position adapter program)).eval world).1 = .error error ↔
      ((world.contexts.get context).released = true ∧ error = .ofContext .released) ∨
      ∃ recorded raised,
        (inContext context (Context.addAdapter adapter)).eval world = (.ok (), recorded) ∧
        ((run program).eval recorded).1 = .error raised ∧
        error = raised.passedThrough ⟨documentName, position⟩ := by
  simp only [runSegment, walkSegments, walkSegment, Segment.position]
  cases released : (world.contexts.get context).released with
  | true =>
      have refused := eval_addAdapter_of_released released adapter
      rw [HostM.eval_bind_of_error refused]
      simp [refused, eq_comm]
  | false =>
      obtain ⟨recorded, begun⟩ := exists_eval_addAdapter released adapter
      rw [HostM.eval_bind_of_ok begun]
      simp [begun, Outcome.mapError_eq_error_iff]

end Segments

/-! ## Failures found and followed -/

/-- Whenever an activity fails, its failure can be followed to where it was raised. -/
def Activity.Traced (levels : Nat) (activity : Activity) : Prop :=
  ∀ world error, ((activity.operation levels).eval world).1 = .error error →
    ∃ failure, Fails levels activity world failure ∧ failure.error = error

theorem traced_script (includes : ∀ name, (Activity.including site name).Traced levels)
    (body : Script Unit) : (Activity.script site body).Traced levels := by
  intro world error failed
  -- A script is free in what it makes of the answers to its includes.  It has passed on a
  -- failure if it ends with the error of one of them.
  by_cases passed : ∃ name between,
      Comes (site.serveWithin levels) world body (.includeDocument name) between ∧
        ((includeWithin levels site.executable name site.context).eval between).1 = .error error
  · obtain ⟨name, between, comes, included⟩ := passed
    obtain ⟨failure, fails, rfl⟩ := includes name between error included
    exact ⟨failure, .passedOn comes fails failed, rfl⟩
  · refine ⟨_, .own failed fun name between comes raised => ?_,
      Failure.error_of_no_levels rfl⟩
    exact passed ⟨name, between, comes, raised⟩

theorem traced_walk (scripts : ∀ body, (Activity.script site body).Traced levels)
    (document : Executable) : (Activity.walk site document).Traced levels := by
  intro world error failed
  obtain ⟨front, segment, rest, between, segments, walked, failed⟩ :=
    outcome_walkSegments_eq_error_iff.1 failed
  cases segment with
  | literal text position =>
      obtain ⟨refusal, refused, rfl⟩ := outcome_literal_eq_error_iff.1 failed
      exact ⟨_, .literal segments walked refused, rfl⟩
  | program text tag position adapter program =>
      rcases outcome_program_eq_error_iff.1 failed with ⟨released, rfl⟩ |
        ⟨recorded, raised, begun, ran, rfl⟩
      · exact ⟨_, .unbegun segments walked released, rfl⟩
      · obtain ⟨failure, fails, rfl⟩ := scripts program.run recorded raised ran
        exact ⟨_, .program segments walked begun fails, failure.error_through _⟩

section Includes

variable {name : String} {between : World} {included : ExecutableId}

/-- An include of a document that could be obtained fails as the run of the document does. -/
theorem outcome_including (shallow : world.includeDepth < includeLimit)
    (sourced : (world.executables.get site.executable).setting.sourced = true)
    (source : world.source.isNone = false)
    (obtained : (obtainExecutable (world.includeSetting site.executable) name).eval world.deeper =
      (.ok included, between)) :
    (((Activity.including site name).operation (levels + 1)).eval world).1 =
      let recorded := between.recording (world.executables.get site.executable) name included
      if (recorded.contexts.get site.context).released then .error (.ofContext .released)
      else (((Activity.walk ⟨included, site.context⟩ (recorded.executables.get included)).operation
        levels).eval (recorded.entering site.context)).1 := by
  rw [Activity.operation, eval_includeWithin shallow sourced source obtained, HostM.eval_keeping]
  have records : (recordDependency (world.executables.get site.executable) name).eval
      (between.holdingMore { executables := [included] }) =
        (.ok (), between.recording (world.executables.get site.executable) name included) :=
    Prod.ext (Arrangement.eval_recordDependency _ _ _) rfl
  rw [HostM.eval_bind_of_ok records]
  dsimp only
  split
  · rename_i released
    rw [eval_executeWith_of_released released]
  · rename_i unreleased
    exact outcome_executeWith (by simpa using unreleased)

theorem outcome_including_of_sourceless (shallow : world.includeDepth < includeLimit)
    (missing : (world.executables.get site.executable).setting.sourced = false ∨
      world.source.isNone = true) :
    (((Activity.including site name).operation (levels + 1)).eval world).1 =
      .error (.ofParsing (.needsSource name)) := by
  have refused : (!(world.executables.get site.executable).setting.sourced ||
      world.source.isNone) = true := by
    rcases missing with unsourced | none <;> simp [*]
  rw [Activity.operation, includeWithin, HostM.eval_asInclude, if_neg (by omega)]
  rw [HostM.eval_bind_of_ok (HostM.eval_get _)]
  dsimp only
  rw [if_pos refused]
  rfl

theorem outcome_including_of_unobtained {error : ParsingError}
    (shallow : world.includeDepth < includeLimit)
    (sourced : (world.executables.get site.executable).setting.sourced = true)
    (source : world.source.isNone = false)
    (missed : ((obtainExecutable (world.includeSetting site.executable) name).eval
      world.deeper).1 = .error error) :
    (((Activity.including site name).operation (levels + 1)).eval world).1 =
      .error (.ofParsing error) := by
  have failed : (obtainExecutable (world.includeSetting site.executable) name).eval world.deeper =
      (.error error, _) := Prod.ext missed rfl
  rw [Activity.operation, includeWithin, HostM.eval_asInclude, if_neg (by omega)]
  rw [HostM.eval_bind_of_ok (HostM.eval_get _)]
  dsimp only
  rw [if_neg (by simp [sourced, source])]
  exact congrArg Prod.fst (HostM.eval_bind_of_error (HostM.eval_convert_of_error failed))

theorem outcome_including_of_deep (deep : levels = 0 ∨ includeLimit ≤ world.includeDepth) :
    (((Activity.including site name).operation levels).eval world).1 =
      .error (.ofDocument (.dependencyLoop name)) := by
  cases levels with
  | zero => rfl
  | succ levels =>
      have tooDeep : includeLimit < world.includeDepth + 1 := by omega
      rw [Activity.operation, includeWithin, HostM.eval_asInclude, if_pos tooDeep]

end Includes

theorem traced_including (walks : ∀ site document, (Activity.walk site document).Traced levels)
    (site : Site) (name : String) : (Activity.including site name).Traced (levels + 1) := by
  intro world error failed
  by_cases shallow : world.includeDepth < includeLimit
  · cases sourced : (world.executables.get site.executable).setting.sourced with
    | false =>
        rw [outcome_including_of_sourceless shallow (.inl sourced)] at failed
        cases failed
        exact ⟨_, .sourceless shallow (.inl sourced), rfl⟩
    | true =>
        cases source : world.source.isNone with
        | true =>
            rw [outcome_including_of_sourceless shallow (.inr source)] at failed
            cases failed
            exact ⟨_, .sourceless shallow (.inr source), rfl⟩
        | false =>
            rcases obtained : (obtainExecutable (world.includeSetting site.executable) name).eval
              world.deeper with ⟨raised | included, between⟩
            · have missed := congrArg Prod.fst obtained
              rw [outcome_including_of_unobtained shallow sourced source missed] at failed
              cases failed
              exact ⟨_, .unobtained shallow sourced source missed, rfl⟩
            · rw [outcome_including shallow sourced source obtained] at failed
              dsimp only at failed
              split at failed
              · rename_i released
                cases failed
                exact ⟨_, .closed shallow sourced source obtained released, rfl⟩
              · rename_i unreleased
                obtain ⟨failure, fails, reported⟩ := walks _ _ _ _ failed
                exact ⟨failure, .inside shallow sourced source obtained rfl
                  (by simpa using unreleased) fails, reported⟩
  · have deep : levels + 1 = 0 ∨ includeLimit ≤ world.includeDepth := .inr (by omega)
    rw [outcome_including_of_deep deep] at failed
    cases failed
    exact ⟨_, .tooDeep deep, rfl⟩

/-- By induction on the levels that are left for includes. -/
theorem traced (levels : Nat) (activity : Activity) : activity.Traced levels := by
  -- On each level, scripts and walks come down to the includes made on it.
  have all (includes : ∀ site name, (Activity.including site name).Traced levels) :
      activity.Traced levels := by
    cases activity with
    | script site body => exact traced_script (includes site) body
    | walk site document => exact traced_walk (traced_script (includes site)) document
    | including site name => exact includes site name
  refine all ?_
  clear all
  induction levels with
  | zero =>
      intro site name world error failed
      rw [outcome_including_of_deep (.inl rfl)] at failed
      cases failed
      exact ⟨_, .tooDeep (.inl rfl), rfl⟩
  | succ levels ih =>
      exact traced_including fun site document => traced_walk (traced_script (ih site)) document

/-- A failure that can be followed to where it was raised is reported. -/
theorem Fails.outcome {activity : Activity} (fails : Fails levels activity world failure) :
    ((activity.operation levels).eval world).1 = .error failure.error := by
  induction fails with
  | own ended => rwa [Failure.error_of_no_levels rfl]
  | passedOn _ _ ended => exact ended
  | literal segments walked refused =>
      exact outcome_walkSegments_eq_error_iff.2 ⟨_, _, _, _, segments, walked,
        outcome_literal_eq_error_iff.2 ⟨_, refused, rfl⟩⟩
  | program segments walked begun _ ih =>
      exact outcome_walkSegments_eq_error_iff.2 ⟨_, _, _, _, segments, walked,
        outcome_program_eq_error_iff.2 (.inr ⟨_, _, begun, ih, Failure.error_through _ _⟩)⟩
  | unbegun segments walked released =>
      exact outcome_walkSegments_eq_error_iff.2 ⟨_, _, _, _, segments, walked,
        outcome_program_eq_error_iff.2 (.inl ⟨released, rfl⟩)⟩
  | tooDeep deep => exact outcome_including_of_deep deep
  | sourceless shallow missing => exact outcome_including_of_sourceless shallow missing
  | unobtained shallow sourced source missed =>
      exact outcome_including_of_unobtained shallow sourced source missed
  | closed shallow sourced source obtained released =>
      rw [outcome_including shallow sourced source obtained]
      exact if_pos released
  | inside shallow sourced source obtained records unreleased _ ih =>
      rw [outcome_including shallow sourced source obtained]
      dsimp only
      rw [records, if_neg (by simp [unreleased]), ih]

/-- An activity fails just with the errors of the failures that can be followed. -/
theorem outcome_eq_error_iff {activity : Activity} {error : ExecutionError} :
    ((activity.operation levels).eval world).1 = .error error ↔
      ∃ failure, Fails levels activity world failure ∧ failure.error = error := by
  constructor
  · exact traced levels activity world error
  · rintro ⟨failure, fails, rfl⟩
    exact fails.outcome

end Tracing

/-! ## Failed executions -/

/-- The state in which the segments of a run begin: on a frozen context neither container nor
controller come before them, otherwise the container does, and what the controller does at the
beginning. -/
inductive Begins (executable : ExecutableId) (context : ContextId) (container : Option Service)
    (controller : Option Controller) (world : World) : World → Prop where
  | frozen (frozen : (world.contexts.get context).frozen = true) :
      Begins executable context container controller world (world.entering context)
  | bare (unfrozen : (world.contexts.get context).frozen = false) (none : controller = none) :
      Begins executable context container controller world
        (world.begun executable context container)
  | opened {present : Controller} {started : World}
      (unfrozen : (world.contexts.get context).frozen = false) (given : controller = some present)
      (opened : (present.opening context).eval (world.begun executable context container) =
        (.ok (), started)) :
      Begins executable context container controller world started

section Executions

variable {executable : ExecutableId} {context : ContextId} {container : Option Service}
  {controller : Option Controller} {world : World} {error : ExecutionError}

/-- The segments of an execution, as an activity. -/
def Activity.ofExecution (world : World) (executable : ExecutableId) (context : ContextId) :
    Activity :=
  .walk ⟨executable, context⟩ (world.executables.get executable)

/-- A controlled run of segments fails by the controller's beginning or by the segments. -/
theorem exists_begins (unfrozen : (world.contexts.get context).frozen = false)
    {action : HostM ExecutionError Unit}
    (failed : ((withController controller context action).eval
      (world.begun executable context container)).1 = .error error) :
    (∃ present, controller = some present ∧
      ((present.opening context).eval (world.begun executable context container)).1 =
        .error error) ∨
    ∃ started, Begins executable context container controller world started ∧
      (action.eval started).1 = .error error := by
  cases controller with
  | none => exact .inr ⟨_, .bare unfrozen rfl, failed⟩
  | some present =>
      rcases opened : (present.opening context).eval (world.begun executable context container) with
        ⟨refusal | _, started⟩
      · rw [withController, HostM.eval_bind_of_error opened] at failed
        exact .inl ⟨present, rfl, by rw [opened]; exact failed⟩
      · rw [withController, HostM.eval_bind_of_ok opened,
          HostM.eval_bind_of_ok (HostM.eval_attempt _ _)] at failed
        refine .inr ⟨started, .opened unfrozen rfl opened, ?_⟩
        -- The controller's end has no say in how the run ends.
        have closed (outcome : Except ExecutionError Unit) (ended : World) :
            ((do
              liftM (present.closing context)
              HostM.ofExcept outcome : HostM ExecutionError Unit).eval ended).1 = outcome := by
          rw [HostM.eval_bind]
          exact congrArg Prod.fst (HostM.eval_ofExcept outcome _)
        exact (closed _ _).symm.trans failed

/-- Apart from a released context, an execution fails by the controller's beginning or by its
segments. -/
theorem outcome_execute_cases
    (failed : ((execute executable context container controller).eval world).1 = .error error) :
    ((world.contexts.get context).released = true ∧ error = .ofContext .released) ∨
    (∃ present, controller = some present ∧ (world.contexts.get context).frozen = false ∧
      ((present.opening context).eval (world.begun executable context container)).1 =
        .error error) ∨
    ∃ started, Begins executable context container controller world started ∧
      (((Activity.ofExecution world executable context).operation (includeLimit + 1)).eval
        started).1 = .error error := by
  rw [execute] at failed
  cases released : (world.contexts.get context).released with
  | true =>
      rw [eval_executeWith_of_released released] at failed
      cases failed
      exact .inl ⟨rfl, rfl⟩
  | false =>
      cases frozen : (world.contexts.get context).frozen with
      | true =>
          rw [eval_executeWith_of_frozen frozen, outcome_executeWith released] at failed
          exact .inr (.inr ⟨_, .frozen frozen, failed⟩)
      | false =>
          rw [eval_executeWith_of_open frozen released] at failed
          rcases exists_begins frozen failed with ⟨present, given, refused⟩ | begins
          · exact .inr (.inl ⟨present, given, rfl, refused⟩)
          · exact .inr (.inr begins)

/-- When an execution fails while it runs segments, the failure can be followed to where it was
raised, and comes from there through all documents that were active, this one the outermost.
The error is the one that was raised; to its frames, which only a program can have given it, there
have been added those of the documents, in this order, each with the segment it was
running.  Only a program that could not begin because the context was released has left no
frame. -/
theorem execute_failure_followed
    (failed : ((execute executable context container controller).eval world).1 = .error error) :
    ((world.contexts.get context).released = true ∧ error = .ofContext .released) ∨
    (∃ present, controller = some present ∧ (world.contexts.get context).frozen = false ∧
      ((present.opening context).eval (world.begun executable context container)).1 =
        .error error) ∨
    ∃ started failure segment,
      Begins executable context container controller world started ∧
      Fails (includeLimit + 1) (.ofExecution world executable context) started failure ∧
      error.description = failure.original.description ∧ error.cause = failure.original.cause ∧
      error.frames = failure.original.frames ++ failure.levels.map Level.place ∧
      (failure.own = false → failure.original.frames = []) ∧
      failure.stack.getLast? = some ⟨world.executables.get executable, segment⟩ ∧
      (∀ level ∈ failure.stack, level.segment ∈ level.document.segments) ∧
      (failure.unbegun = none → failure.levels = failure.stack) ∧
      ∀ level, failure.unbegun = some level → failure.stack = level :: failure.levels ∧
        failure.original = .ofContext .released ∧ level.segment.isLiteral = false := by
  refine (outcome_execute_cases failed).imp_right (Or.imp_right ?_)
  rintro ⟨started, begins, walked⟩
  obtain ⟨failure, fails, rfl⟩ := outcome_eq_error_iff.1 walked
  obtain ⟨segment, outermost⟩ := fails.exists_getLast?
  refine ⟨started, failure, segment, begins, fails, rfl, rfl, rfl, fails.frames_original,
    outermost, fails.mem_segments, fun begun => ?_, fun level unbegun =>
    ⟨?_, fails.unbegun_of_released unbegun⟩⟩
  · rw [Failure.stack, begun]
    rfl
  · rw [Failure.stack, unbegun]
    rfl

end Executions

/-- What the documents of the hosts below are compiled with. -/
def failingSetting : Setting where
  registry := ⟨0⟩
  sourced := true
  options := {}

/-- A document of a host below. -/
def failingDocument (name : String) (segments : List Segment) : Executable :=
  { documentName := name, partition := "", timestamp := ⟨0⟩, lastUsed := ⟨0⟩
    setting := failingSetting, segments }

/-- A program at a place. -/
def failingSegment (position : Position) (body : Script Unit) : Segment :=
  .program "x" "m" position ⟨0⟩ ⟨⟨[], .ok ()⟩, body⟩

/-- A host whose page includes a part, which fails. -/
def failingHost : World where
  executables := ⟨[
    failingDocument "page" [.literal "text" ⟨1, 1⟩,
      failingSegment ⟨1, 5⟩ (Script.request (.includeDocument "part"))],
    failingDocument "part" [failingSegment ⟨1, 3⟩ (.fail (.ofDescription "spoilt"))]]⟩
  contexts := ⟨[{ output := ⟨0⟩, errorOutput := ⟨1⟩ }]⟩
  sinks := ⟨[{}, {}]⟩
  source := some { identifier := "s", kind := .memory, documents := ⟨[("part", ⟨0⟩)]⟩ }
  descriptors := ⟨[{
    name := "part", partition := "s", tag := "", text := "", timestamp := ⟨0⟩
    slots := NameTable.insert {} failingSetting.options.forIncludes.compileKey ⟨1⟩ }]⟩

/-- The state in which the page includes the part. -/
def failingIncludes : World :=
  { failingHost.entering ⟨0⟩ with
    contexts := ⟨[{
      output := ⟨0⟩, errorOutput := ⟨1⟩, adapters := [⟨0⟩], lastAdapter := some ⟨0⟩ }]⟩
    sinks := ⟨[{ text := "text" }, {}]⟩ }

theorem outcome_include_failingIncludes :
    ((includeWithin (includeLimit + 1) ⟨0⟩ "part" ⟨0⟩).eval failingIncludes).1 =
      .error { description := "spoilt", frames := [⟨"part", ⟨1, 3⟩⟩] } := by
  have fetched : (fetchDocument "part").eval failingIncludes.deeper =
      (.ok ⟨0⟩, failingIncludes.deeper) := rfl
  have filled : (failingIncludes.deeper.descriptors.get ⟨0⟩).slots.get?
      (failingIncludes.includeSetting ⟨0⟩).options.compileKey = some ⟨1⟩ :=
    NameTable.get?_insert_self _ _ _
  have obtained : (obtainExecutable (failingIncludes.includeSetting ⟨0⟩) "part").eval
      failingIncludes.deeper = (.ok ⟨1⟩, failingIncludes.deeper) := by
    rw [eval_obtainExecutable_of_fetched rfl rfl fetched, filled]
  have including := @outcome_including includeLimit ⟨⟨0⟩, ⟨0⟩⟩ failingIncludes "part" _ ⟨1⟩
    (by decide) rfl rfl obtained
  rw [Activity.operation] at including
  rw [including]
  rfl

theorem execute_failure_followed_included :
    ((execute ⟨0⟩ ⟨0⟩).eval failingHost).1 =
        .error { description := "spoilt", frames := [⟨"part", ⟨1, 3⟩⟩, ⟨"page", ⟨1, 5⟩⟩] } ∧
      ∃ started failure,
        Fails (includeLimit + 1) (.ofExecution failingHost ⟨0⟩ ⟨0⟩) started failure ∧
        failure.original.frames ++ failure.levels.map Level.place =
          [⟨"part", ⟨1, 3⟩⟩, ⟨"page", ⟨1, 5⟩⟩] := by
  have failed : ((execute ⟨0⟩ ⟨0⟩).eval failingHost).1 =
      .error { description := "spoilt", frames := [⟨"part", ⟨1, 3⟩⟩, ⟨"page", ⟨1, 5⟩⟩] } := by
    rw [execute, outcome_executeWith rfl, Executable.walk, outcome_walkSegments_eq_error_iff]
    exact ⟨[.literal "text" ⟨1, 1⟩], _, [], _, rfl, rfl, outcome_program_eq_error_iff.2
      (.inr ⟨failingIncludes, _, rfl, outcome_include_failingIncludes, rfl⟩)⟩
  refine ⟨failed, ?_⟩
  rcases execute_failure_followed failed with ⟨released, -⟩ | ⟨present, given, -⟩ |
    ⟨started, failure, segment, -, fails, -, -, frames, -⟩
  · cases released
  · cases given
  · exact ⟨started, failure, fails, frames.symm⟩

/-- A host whose page releases the context, and then goes on with a program or with a literal. -/
def releasingHost : World where
  executables := ⟨[
    failingDocument "page" [failingSegment ⟨1, 1⟩ (Script.request .release),
      failingSegment ⟨1, 17⟩ (pure ())],
    failingDocument "page" [failingSegment ⟨1, 1⟩ (Script.request .release),
      .literal "text" ⟨1, 17⟩]]⟩
  contexts := ⟨[{ output := ⟨0⟩, errorOutput := ⟨1⟩ }]⟩
  sinks := ⟨[{}, {}]⟩

/-- Behind the release a program fails without naming its segment, and a literal does not. -/
theorem execute_released_without_frame :
    ((execute ⟨0⟩ ⟨0⟩).eval releasingHost).1 = .error (.ofContext .released) ∧
      (ExecutionError.ofContext .released).frames = [] ∧
      ((execute ⟨1⟩ ⟨0⟩).eval releasingHost).1 =
        .error ((ExecutionError.ofContext .released).passedThrough ⟨"page", ⟨1, 17⟩⟩) := by
  exact ⟨rfl, rfl, rfl⟩

end DocumentHost
