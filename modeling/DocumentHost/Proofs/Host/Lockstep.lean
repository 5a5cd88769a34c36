import DocumentHost.Host.Execute
import DocumentHost.Proofs.Host.Agreement
import DocumentHost.Proofs.Host.Aside
import DocumentHost.Proofs.Mini.Running

/-!
# Runs in lockstep

Two hosts run one document in lockstep if everything that a Mini program can ask for is
answered alike in both, and if both take the same documents from their sources.  Then
runs that include documents to any depth end alike, unless one of them is excused.
-/

namespace DocumentHost

variable {ε α β : Type}

/-! ## Scripts -/

theorem eval_runScript_done {serve : (request : Request) → HostM ExecutionError request.Reply}
    (outcome : Except ExecutionError α) (world : World) :
    (runScript serve (.done outcome)).eval world = (outcome, world) :=
  rfl

theorem eval_runScript_ask {serve : (request : Request) → HostM ExecutionError request.Reply}
    (request : Request) (next : Except ExecutionError request.Reply → Script α) (world : World) :
    (runScript serve (.ask request next)).eval world =
      (runScript serve (next ((serve request).eval world).1)).eval
        ((serve request).eval world).2 :=
  rfl

/-- Scripts are carried out part by part. -/
theorem runScript_bind (serve : (request : Request) → HostM ExecutionError request.Reply)
    (script : Script α) (next : α → Script β) :
    runScript serve (script >>= next) =
      runScript serve script >>= fun value => runScript serve (next value) := by
  apply HostM.ext_eval
  intro world
  change (runScript serve (script.bind next)).eval world = _
  induction script generalizing world with
  | done outcome =>
      cases outcome with
      | ok value => rw [HostM.eval_bind_of_ok (eval_runScript_done _ _)]; rfl
      | error error => rw [HostM.eval_bind_of_error (eval_runScript_done _ _)]; rfl
  | ask request continuation ih =>
      rw [Script.bind, eval_runScript_ask, ih, HostM.eval_bind, HostM.eval_bind,
        eval_runScript_ask]

/-- A request that fails ends the run of a script that does not survive it. -/
theorem runScript_ask {serve : (request : Request) → HostM ExecutionError request.Reply}
    {request : Request} {next : Except ExecutionError request.Reply → Script α}
    (stops : ∀ error, next (.error error) = .done (.error error)) :
    runScript serve (.ask request next) =
      serve request >>= fun reply => runScript serve (next (.ok reply)) := by
  apply HostM.ext_eval
  intro world
  rw [eval_runScript_ask, HostM.eval_bind]
  rcases (serve request).eval world with ⟨error | reply, behind⟩
  · dsimp only
    rw [stops, eval_runScript_done]
  · rfl

theorem runScript_agree {Related : World → World → Prop} {Excuse : World → Prop}
    {allowed : Request → Prop}
    {serve otherServe : (request : Request) → HostM ExecutionError request.Reply}
    (served : ∀ request, allowed request →
      AgreeUnless Related Excuse (serve request) (otherServe request))
    {script : Script α} (asks : script.Asks allowed) :
    AgreeUnless Related Excuse (runScript serve script) (runScript otherServe script) := by
  induction asks with
  | done outcome =>
      refine .of_agree fun world other related => ?_
      rw [AgreeFrom, eval_runScript_done, eval_runScript_done]
      exact ⟨rfl, related⟩
  | ask isAllowed stops _ ih =>
      rw [runScript_ask stops, runScript_ask stops]
      exact (served _ isAllowed).bind fun reply => ih (.ok reply)

/-! ## Lockstep -/

/-- The programs among some segments make the requests of Mini only. -/
def SpeakMini (segments : List Segment) : Prop :=
  ∀ text tag position adapter program,
    Segment.program text tag position adapter program ∈ segments →
    program.run.Asks Mini.Makes

/-- A relation between the states of two hosts, in each of which one context is at work,
that every step of a Mini run keeps.  The relation speaks about pairs of executables
that are known to be the same program in both. -/
structure Lockstep (Related : List (ExecutableId × ExecutableId) → World → World → Prop)
    (Excuse : World → Prop) (context otherContext : ContextId) : Prop where
  weaken : ∀ {pair pairs world other}, Related (pair :: pairs) world other →
    Related pairs world other
  program : ∀ {pairs world other first second}, Related pairs world other →
    (first, second) ∈ pairs →
    SameProgram (world.executables.get first) (other.executables.get second) ∧
      SpeakMini (world.executables.get first).segments
  marks : ∀ {pairs world other}, Related pairs world other →
    (world.contexts.get context).released = (other.contexts.get otherContext).released ∧
      (world.contexts.get context).frozen = (other.contexts.get otherContext).frozen
  depth : ∀ {pairs world other}, Related pairs world other →
    world.includeDepth = other.includeDepth
  setDepth : ∀ {pairs world other} (includeDepth : Nat), Related pairs world other →
    Related pairs { world with includeDepth } { other with includeDepth }
  excuseDepth : ∀ {world} (includeDepth : Nat), Excuse world → Excuse { world with includeDepth }
  source : ∀ {pairs world other}, Related pairs world other →
    world.source.isNone = other.source.isNone
  serve : ∀ {pairs request} (includes otherIncludes) (first second : ExecutableId),
    Mini.Makes request → (∀ name, request ≠ .includeDocument name) →
    Agree (Related pairs) (serveRequest includes first context request)
      (serveRequest otherIncludes second otherContext request)
  addAdapter : ∀ {pairs} (adapter : AdapterId),
    Agree (Related pairs) (inContext context (Context.addAdapter adapter))
      (inContext otherContext (Context.addAdapter adapter))
  current : ∀ {pairs} {first second : HostM ExecutionError Unit},
    AgreeUnless (Related pairs) Excuse first second →
    AgreeUnless (Related pairs) Excuse (withCurrent context first)
      (withCurrent otherContext second)
  keep : ∀ {pairs held otherHeld} {first second : HostM ExecutionError Unit},
    (held, otherHeld) ∈ pairs → AgreeUnless (Related pairs) Excuse first second →
    AgreeUnless (Related pairs) Excuse (keeping { executables := [held] } first)
      (keeping { executables := [otherHeld] } second)
  use : ∀ {pairs first second}, (first, second) ∈ pairs →
    Agree (Related pairs) (noteUse first : HostM ExecutionError Unit) (noteUse second)
  obtain : ∀ {pairs world other first second} (name : String), Related pairs world other →
    (first, second) ∈ pairs →
    let setting : Setting := { (world.executables.get first).setting with
      options := (world.executables.get first).setting.options.forIncludes }
    (∃ found otherFound behind otherBehind,
      (obtainExecutable setting name).eval world = (.ok found, behind) ∧
      (obtainExecutable setting name).eval other = (.ok otherFound, otherBehind) ∧
      Related ((found, otherFound) :: pairs) behind otherBehind) ∨
    (∃ error behind otherBehind,
      (obtainExecutable setting name).eval world = (.error error, behind) ∧
      (obtainExecutable setting name).eval other = (.error error, otherBehind) ∧
      Related pairs behind otherBehind) ∨
    Excused Excuse ((obtainExecutable setting name).eval world) ∨
    Excused Excuse ((obtainExecutable setting name).eval other)
  record : ∀ {pairs} {document otherDocument : Executable} (name : String),
    SameProgram document otherDocument →
    Agree (Related pairs) (recordDependency document name) (recordDependency otherDocument name)

namespace Lockstep

variable {Related : List (ExecutableId × ExecutableId) → World → World → Prop}
  {Excuse : World → Prop} {context otherContext : ContextId}
  {pairs : List (ExecutableId × ExecutableId)}

theorem write_agree (lockstep : Lockstep Related Excuse context otherContext) (stream : Stream)
    (text : String) :
    Agree (Related pairs) ((writeText context stream text).convert ExecutionError.ofContext)
      ((writeText otherContext stream text).convert ExecutionError.ofContext) :=
  lockstep.serve includeDocument includeDocument default default (.write stream text) nofun

/-- By induction on the segments. -/
theorem walkSegments_agree (lockstep : Lockstep Related Excuse context otherContext)
    {runProgram otherRun : Program → HostM ExecutionError Unit}
    (runs : ∀ program : Program, program.run.Asks Mini.Makes →
      AgreeUnless (Related pairs) Excuse (runProgram program) (otherRun program))
    (documentName : String) {segments : List Segment} (speak : SpeakMini segments) :
    AgreeUnless (Related pairs) Excuse (walkSegments runProgram documentName context segments)
      (walkSegments otherRun documentName otherContext segments) := by
  induction segments with
  | nil => exact .of_agree (.pure ())
  | cons segment rest ih =>
      have restSpeaks : SpeakMini rest := fun text tag position adapter program member =>
        speak text tag position adapter program (by simp [member])
      cases segment with
      | literal text position =>
          refine AgreeUnless.bind (.convert _ ?_) fun _ => ih restSpeaks
          exact .of_agree (lockstep.write_agree .output text)
      | program text tag position adapter program =>
          refine AgreeUnless.bind (.of_agree (lockstep.addAdapter adapter)) fun _ => ?_
          refine AgreeUnless.bind (.convert _ ?_) fun _ => ih restSpeaks
          exact runs program (speak text tag position adapter program (by simp))

/-- What is said about the runs of programs is said about the runs of documents. -/
theorem executeWith_agree (lockstep : Lockstep Related Excuse context otherContext)
    {run otherRun : ExecutableId → ContextId → Program → HostM ExecutionError Unit}
    {first second : ExecutableId} (known : (first, second) ∈ pairs)
    (runs : ∀ program : Program, program.run.Asks Mini.Makes →
      AgreeUnless (Related pairs) Excuse (run first context program)
        (otherRun second otherContext program)) :
    AgreeUnless (Related pairs) Excuse (executeWith run first context none none)
      (executeWith otherRun second otherContext none none) := by
  intro world other related
  obtain ⟨released, -⟩ := lockstep.marks related
  refine .get ?_
  rw [← released]
  by_cases closed : (world.contexts.get context).released = true
  · rw [if_pos closed, if_pos closed]
    exact .inl (.throw related _)
  · rw [if_neg closed, if_neg closed]
    refine lockstep.current ?_ world other related
    clear related released closed world other
    intro world other related
    refine .get (.bind ?_ fun _ => .of_agree (lockstep.use known))
    obtain ⟨same, speak⟩ := lockstep.program related known
    simp only [ite_self]
    change AgreeUnlessFrom _ _ _ _ (walkSegments _ _ _ _) (walkSegments _ _ _ _)
    rw [← same.documentName, ← same.segments]
    exact lockstep.walkSegments_agree runs _ speak world other related

/-- A request that is no include is answered alike at every depth. -/
theorem serveRequest_agree (lockstep : Lockstep Related Excuse context otherContext)
    {includes otherIncludes : ExecutableId → String → ContextId → HostM ExecutionError Unit}
    {first second : ExecutableId}
    (includesAgree : ∀ name, AgreeUnless (Related pairs) Excuse (includes first name context)
      (otherIncludes second name otherContext)) (request : Request)
    (makes : Mini.Makes request) :
    AgreeUnless (Related pairs) Excuse (serveRequest includes first context request)
      (serveRequest otherIncludes second otherContext request) := by
  cases makes with
  | includeDocument name => exact includesAgree name
  | write stream text => exact .of_agree (lockstep.serve _ _ _ _ (.write stream text) nofun)
  | readAttribute name => exact .of_agree (lockstep.serve _ _ _ _ (.readAttribute name) nofun)
  | setAttribute name value =>
      exact .of_agree (lockstep.serve _ _ _ _ (.setAttribute name value) nofun)
  | readGlobal name => exact .of_agree (lockstep.serve _ _ _ _ (.readGlobal name) nofun)
  | setGlobal name value => exact .of_agree (lockstep.serve _ _ _ _ (.setGlobal name value) nofun)
  | findService name => exact .of_agree (lockstep.serve _ _ _ _ (.findService name) nofun)
  | setService name service =>
      exact .of_agree (lockstep.serve _ _ _ _ (.setService name service) nofun)

theorem asInclude_agree (lockstep : Lockstep Related Excuse context otherContext) (name : String)
    {first second : HostM ExecutionError Unit}
    (agree : AgreeUnless (Related pairs) Excuse first second) :
    AgreeUnless (Related pairs) Excuse (asInclude name first) (asInclude name second) := by
  intro world other related
  refine .get ?_
  rw [← lockstep.depth related]
  dsimp only
  split
  · exact .inl (.throw related _)
  · refine .bind (.inl (.modify (lockstep.setDepth _ related))) fun _ => ?_
    intro within otherWithin relatedWithin
    refine (agree within otherWithin relatedWithin).tidied ?_ ?_ ?_
    · intro behind otherBehind relatedBehind
      rw [lockstep.depth relatedBehind]
      exact lockstep.setDepth _ relatedBehind
    · exact fun behind excuse => lockstep.excuseDepth _ excuse
    · exact fun behind excuse => lockstep.excuseDepth _ excuse

/-- By induction on the levels of includes that may be nested. -/
theorem includeWithin_agree (lockstep : Lockstep Related Excuse context otherContext)
    (levels : Nat) {first second : ExecutableId} (known : (first, second) ∈ pairs)
    (name : String) :
    AgreeUnless (Related pairs) Excuse (includeWithin levels first name context)
      (includeWithin levels second name otherContext) := by
  induction levels generalizing first second name pairs with
  | zero => exact .of_agree (.throw _)
  | succ levels ih =>
      rw [includeWithin, includeWithin]
      apply lockstep.asInclude_agree
      intro world other related
      refine .get ?_
      obtain ⟨same, -⟩ := lockstep.program related known
      have sourced := lockstep.source related
      dsimp only
      rw [← same.setting, ← sourced]
      split
      · exact .inl (.throw related _)
      rcases lockstep.obtain name related known with
        ⟨found, otherFound, behind, otherBehind, obtained, otherObtained, relatedBehind⟩ |
        ⟨error, behind, otherBehind, failed, otherFailed, relatedBehind⟩ | excused | excused
      · refine .bind_of_ok (HostM.eval_convert_of_ok obtained)
          (HostM.eval_convert_of_ok otherObtained) ?_
        have knownInside : (found, otherFound) ∈ (found, otherFound) :: pairs := by simp
        -- the included document is a known pair only while it runs
        refine AgreeUnlessFrom.mono (lockstep.keep knownInside ?_ behind otherBehind relatedBehind)
          fun _ _ => lockstep.weaken
        refine .bind (.of_agree (lockstep.record name same)) fun _ => ?_
        apply lockstep.executeWith_agree knownInside
        intro program asks
        exact runScript_agree (lockstep.serveRequest_agree (ih knownInside)) asks
      · exact .bind_of_error (HostM.eval_convert_of_error failed)
          (HostM.eval_convert_of_error otherFailed) relatedBehind
      · exact .inr (.inl ((excused.convert _).bind _))
      · exact .inr (.inr ((excused.convert _).bind _))

/-- Mini scripts run alike, whatever they include. -/
theorem runFor_agree (lockstep : Lockstep Related Excuse context otherContext)
    {first second : ExecutableId} (known : (first, second) ∈ pairs) {script : Script α}
    (asks : script.Asks Mini.Makes) :
    AgreeUnless (Related pairs) Excuse (runFor first context script)
      (runFor second otherContext script) :=
  runScript_agree
    (lockstep.serveRequest_agree (lockstep.includeWithin_agree (includeLimit + 1) known)) asks

end Lockstep

end DocumentHost
