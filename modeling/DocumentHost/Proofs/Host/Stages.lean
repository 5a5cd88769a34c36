import DocumentHost.Host.Observer
import DocumentHost.Proofs.Context.Course

/-!
# The stages of a run

A run of a document is a sequence of stages: the controller begins, the segments are run one
after the other, the controller ends.  Whatever the stages do to the state, the run goes
through them in this order, and puts back around them the current context and the service
whose name the container has taken.
-/

namespace DocumentHost

/-- A part of a run. -/
inductive Stage where
  | opening
  | segment (number : Nat)
  | closing
deriving DecidableEq, Repr

/-- A stage that was gone through, and how it ended. -/
abbrev Passage := Stage × Except ExecutionError Unit

/-- Run one segment: an adapter is recorded, and a failure of the segment gets a frame. -/
def runSegment (runProgram : Program → HostM ExecutionError Unit) (documentName : String)
    (context : ContextId) (segment : Segment) : HostM ExecutionError Unit :=
  walkSegments runProgram documentName context [segment]

/-- Run all segments of a document in order. -/
def Executable.walk (document : Executable) (runProgram : Program → HostM ExecutionError Unit)
    (context : ContextId) : HostM ExecutionError Unit :=
  walkSegments runProgram document.documentName context document.segments

/-- What is done in a stage of a run. -/
def Stage.perform (runProgram : Program → HostM ExecutionError Unit) (document : Executable)
    (context : ContextId) (controller : Option Controller) : Stage → HostM ExecutionError Unit
  | .opening => controller.elim (pure ()) fun present => present.opening context
  | .segment number =>
      document.segments[number]?.elim (pure ())
        (runSegment runProgram document.documentName context)
  | .closing => controller.elim (pure ()) fun present => liftM (present.closing context)

/-- Stages are gone through one after the other, each in the state that the one before has
left. -/
inductive Performs (perform : Stage → HostM ExecutionError Unit) :
    World → List Passage → World → Prop where
  | nil (world : World) : Performs perform world [] world
  | cons {world between behind : World} {stage : Stage} {outcome : Except ExecutionError Unit}
      {passages : List Passage} (performed : (perform stage).eval world = (outcome, between))
      (further : Performs perform between passages behind) :
      Performs perform world ((stage, outcome) :: passages) behind

/-- Of a number of segments those from one on are run in order, to the end or up to the first
that fails. -/
inductive Walked (count : Nat) : Nat → List Passage → Except ExecutionError Unit → Prop where
  | done : Walked count count [] (.ok ())
  | failed {number : Nat} (left : number < count) (error : ExecutionError) :
      Walked count number [(.segment number, .error error)] (.error error)
  | passed {number : Nat} {passages : List Passage} {outcome : Except ExecutionError Unit}
      (left : number < count) (further : Walked count (number + 1) passages outcome) :
      Walked count number ((.segment number, .ok ()) :: passages) outcome

/-- A run of a number of segments, with a controller or without.  A controller begins once,
before all segments.  If it refuses, nothing else is done; otherwise it ends once, behind
the last segment that is run, however that went. -/
inductive Bracketed (count : Nat) : Bool → List Passage → Except ExecutionError Unit → Prop where
  | bare {passages : List Passage} {outcome : Except ExecutionError Unit}
      (walked : Walked count 0 passages outcome) : Bracketed count false passages outcome
  | refused (error : ExecutionError) :
      Bracketed count true [(.opening, .error error)] (.error error)
  | bracketed {passages : List Passage} {outcome : Except ExecutionError Unit}
      (walked : Walked count 0 passages outcome) :
      Bracketed count true ((.opening, .ok ()) :: (passages ++ [(.closing, .ok ())])) outcome

namespace World

/-- The name under which the containers of an executable's runs stand. -/
def containerName (world : World) (executable : ExecutableId) : String :=
  (world.executables.get executable).setting.options.containerService

/-- The service that stands under that name in a context. -/
def contained? (world : World) (executable : ExecutableId) (context : ContextId) :
    Option Service :=
  (world.contexts.get context).services.get? (world.containerName executable)

/-- The state in which a container has been installed. -/
def installing (world : World) (context : ContextId) (name : String) (container : Option Service) :
    World :=
  match container with
  | none => world
  | some service => world.modifyContext context fun found =>
      { found with services := found.services.insert name service }

/-- The state in which a run begins on a context that takes changes. -/
def begun (world : World) (executable : ExecutableId) (context : ContextId)
    (container : Option Service) : World :=
  (world.entering context).installing context (world.containerName executable) container

/-- The state in which the service of a name has been put back, where a container was given. -/
def puttingBack (world : World) (context : ContextId) (name : String) (container : Option Service)
    (found : Option Service) : World :=
  match container with
  | none => world
  | some _ => ((restoreContainer name found context).eval world).2

/-- The state in which the use of an executable has been noted, if its run was a success. -/
def noting (world : World) (executable : ExecutableId) (outcome : Except ExecutionError Unit) :
    World :=
  match outcome with
  | .ok () => ((noteUse executable : HostM ExecutionError Unit).eval world).2
  | .error _ => world

/-- The state behind a run, given the state behind its last stage and the one in front of it. -/
def finishing (ended world : World) (executable : ExecutableId) (context : ContextId)
    (container : Option Service) (outcome : Except ExecutionError Unit) : World :=
  ((ended.puttingBack context (world.containerName executable) container
    (world.contained? executable context)).noting executable outcome).leaving world

end World

/-! ## Stages one after the other -/

section Stages

variable {perform : Stage → HostM ExecutionError Unit} {world between behind : World}
  {passages others : List Passage}

theorem Performs.append (first : Performs perform world passages between)
    (second : Performs perform between others behind) :
    Performs perform world (passages ++ others) behind := by
  induction first with
  | nil => exact second
  | cons performed _ ih => exact .cons performed (ih second)

variable {runProgram : Program → HostM ExecutionError Unit} {documentName : String}
  {context : ContextId}

/-- The segments behind one are run as if they stood alone. -/
theorem walkSegments_cons (segment : Segment) (rest : List Segment) :
    walkSegments runProgram documentName context (segment :: rest) =
      runSegment runProgram documentName context segment >>= fun _ =>
        walkSegments runProgram documentName context rest := by
  cases segment <;> simp [runSegment, walkSegments]

theorem walkSegments_append (front rest : List Segment) :
    walkSegments runProgram documentName context (front ++ rest) =
      walkSegments runProgram documentName context front >>= fun _ =>
        walkSegments runProgram documentName context rest := by
  induction front with
  | nil => simp [walkSegments]
  | cons segment front ih =>
      rw [List.cons_append, walkSegments_cons, walkSegments_cons, ih, bind_assoc]

/-- Segments fail if one of them does, those before it being run. -/
theorem outcome_walkSegments_eq_error_iff {segments : List Segment} {error : ExecutionError} :
    ((walkSegments runProgram documentName context segments).eval world).1 = .error error ↔
      ∃ front segment rest between, segments = front ++ segment :: rest ∧
        (walkSegments runProgram documentName context front).eval world = (.ok (), between) ∧
        ((runSegment runProgram documentName context segment).eval between).1 = .error error := by
  constructor
  · intro failed
    induction segments generalizing world with
    | nil => cases failed
    | cons segment rest ih =>
        rw [walkSegments_cons] at failed
        rcases ran : (runSegment runProgram documentName context segment).eval world with
          ⟨raised | _, between⟩
        · rw [HostM.eval_bind_of_error ran] at failed
          exact ⟨[], segment, rest, world, rfl, rfl, by rw [ran]; exact failed⟩
        · rw [HostM.eval_bind_of_ok ran] at failed
          obtain ⟨front, failing, behind, last, rfl, walked, raised⟩ := ih failed
          refine ⟨segment :: front, failing, behind, last, rfl, ?_, raised⟩
          rw [walkSegments_cons, HostM.eval_bind_of_ok ran, walked]
  · rintro ⟨front, segment, rest, between, rfl, walked, failed⟩
    rw [walkSegments_append, HostM.eval_bind_of_ok walked, walkSegments_cons]
    rcases ran : (runSegment runProgram documentName context segment).eval between with
      ⟨raised | _, after⟩
    · rw [HostM.eval_bind_of_error ran]
      rwa [ran] at failed
    · rw [ran] at failed
      cases failed

/-- The segments from one on as stages of a run.  By induction on the segments. -/
theorem exists_walked {document : Executable} (runProgram : Program → HostM ExecutionError Unit)
    (context : ContextId) (controller : Option Controller) (front : List Segment)
    {segments : List Segment} (whole : document.segments = front ++ segments)
    (world : World) :
    ∃ passages ended outcome,
      (walkSegments runProgram document.documentName context segments).eval world =
        (outcome, ended) ∧
      Performs (Stage.perform runProgram document context controller) world passages ended ∧
      Walked document.segments.length front.length passages outcome := by
  induction segments generalizing front world with
  | nil =>
      refine ⟨[], world, .ok (), rfl, .nil world, ?_⟩
      rw [whole, List.append_nil]
      exact .done
  | cons segment rest ih =>
      have left : front.length < document.segments.length := by
        rw [whole, List.length_append, List.length_cons]
        omega
      have stage : Stage.perform runProgram document context controller (.segment front.length) =
          runSegment runProgram document.documentName context segment := by
        simp [Stage.perform, whole]
      rw [walkSegments_cons]
      rcases ran : (runSegment runProgram document.documentName context segment).eval world with
        ⟨error | _, between⟩
      · exact ⟨[(.segment front.length, .error error)], between, .error error,
          HostM.eval_bind_of_error ran, .cons (stage ▸ ran) (.nil between), .failed left error⟩
      · obtain ⟨passages, ended, outcome, evaluated, performs, walked⟩ :=
          ih (front ++ [segment]) (by simp [whole]) between
        rw [List.length_append, List.length_singleton] at walked
        exact ⟨(.segment front.length, .ok ()) :: passages, ended, outcome,
          (HostM.eval_bind_of_ok ran).trans evaluated, .cons (stage ▸ ran) performs,
          .passed left walked⟩

/-- The segments between the calls of the controller. -/
theorem exists_bracketed (runProgram : Program → HostM ExecutionError Unit)
    (context : ContextId) (document : Executable) (controller : Option Controller)
    (world : World) :
    ∃ passages ended outcome,
      (withController controller context (document.walk runProgram context)).eval world =
        (outcome, ended) ∧
      Performs (Stage.perform runProgram document context controller) world passages ended ∧
      Bracketed document.segments.length controller.isSome passages outcome := by
  cases controller with
  | none =>
      obtain ⟨passages, ended, outcome, evaluated, performs, walked⟩ :=
        exists_walked runProgram context none [] rfl world
      exact ⟨passages, ended, outcome, evaluated, performs, .bare walked⟩
  | some controller =>
      rcases opened : (controller.opening context).eval world with ⟨error | _, between⟩
      · refine ⟨[(.opening, .error error)], between, .error error,
          HostM.eval_bind_of_error opened, .cons opened (.nil between), .refused error⟩
      · obtain ⟨passages, ended, outcome, evaluated, performs, walked⟩ :=
          exists_walked runProgram context (some controller) [] rfl between
        have closed : (liftM (controller.closing context) : HostM ExecutionError Unit).eval ended =
            (.ok (), ((controller.closing context).run ended).2) := rfl
        have finished : Performs (Stage.perform runProgram document context (some controller)) ended
            [(.closing, .ok ())] ((controller.closing context).run ended).2 :=
          .cons closed (.nil _)
        refine ⟨(.opening, .ok ()) :: (passages ++ [(Stage.closing, Except.ok ())]), _, outcome, ?_,
          .cons opened (performs.append finished), .bracketed walked⟩
        rw [withController, HostM.eval_bind_of_ok opened,
          HostM.eval_bind_of_ok (HostM.eval_attempt _ _), Executable.walk, evaluated]
        dsimp only
        rw [HostM.eval_bind_of_ok closed, HostM.eval_ofExcept]

end Stages

/-! ## Containers -/

section Containers

variable {world : World} {context : ContextId} {name : String}

theorem eval_setService_of_open (world : World)
    (unfrozen : (world.contexts.get context).frozen = false)
    (unreleased : (world.contexts.get context).released = false) (name : String)
    (service : Service) :
    (inContext context (Context.setService name service)).eval world =
      (.ok ((world.contexts.get context).services.get? name),
        world.installing context name (some service)) := by
  have permitted := Context.Operation.run_eq (.setService name service) (world.contexts.get context)
  rw [if_neg (by simp [unreleased]), if_neg (by simp [unfrozen])] at permitted
  change Context.setService name service (world.contexts.get context) = _ at permitted
  rw [inContext, HostM.eval_convert, HostM.eval_onContext, permitted]
  have installed := Arena.modify_const_get world.contexts context fun found : Context =>
    { found with services := found.services.insert name service }
  exact congrArg (fun contexts => (_, { world with contexts := contexts })) installed

/-- While the run begins, the service is the container. -/
theorem get?_installing (world : World) (known : context.index < world.contexts.size)
    (service : Service) :
    ((world.installing context name (some service)).contexts.get context).services.get? name =
      some service := by
  rw [World.installing, World.modifyContext, Arena.get_modify_self _ _ known]
  exact NameTable.get?_insert_self _ _ _

/-- A context that takes changes behind an operation is as the operation has left it. -/
theorem get_of_operation (operation : Context.Operation) {behind : World}
    (changed : ((onContext context operation.run).eval world).2 = behind)
    (known : context.index < behind.contexts.size)
    (unfrozen : (behind.contexts.get context).frozen = false)
    (unreleased : (behind.contexts.get context).released = false) :
    behind.contexts.get context = operation.change (world.contexts.get context) := by
  rw [HostM.eval_onContext, Context.Operation.run_eq] at changed
  split at changed
  · rename_i value after done
    split at done
    · cases done
    split at done
    · cases done
    · cases done
      rw [← changed, World.modifyContext, Arena.size_modify] at known
      rw [← changed, World.modifyContext, Arena.get_modify_self _ _ known]
  · rename_i error refused
    obtain rfl : world = behind := changed
    rw [if_neg (by simp [unreleased]), if_neg (by simp [unfrozen])] at refused
    cases refused

/-- Where the context takes changes when the service has been put back, it is what it was. -/
theorem get?_puttingBack {behind : World} {service : Service} {found : Option Service}
    (changed : world.puttingBack context name (some service) found = behind)
    (known : context.index < behind.contexts.size)
    (unfrozen : (behind.contexts.get context).frozen = false)
    (unreleased : (behind.contexts.get context).released = false) :
    (behind.contexts.get context).services.get? name = found := by
  cases found with
  | some former =>
      rw [get_of_operation (.setService name former) changed known unfrozen unreleased]
      exact NameTable.get?_insert_self _ _ _
  | none =>
      rw [get_of_operation (.removeService name) changed known unfrozen unreleased]
      exact NameTable.get?_erase_self _ _

end Containers

/-! ## Whole runs -/

section Runs

variable {run : ExecutableId → ContextId → Program → HostM ExecutionError Unit}
  {executable : ExecutableId} {context : ContextId} {container : Option Service}
  {controller : Option Controller} {world : World}

theorem eval_executeWith_of_released (released : (world.contexts.get context).released = true) :
    (executeWith run executable context container controller).eval world =
      (.error (.ofContext .released), world) := by
  rw [executeWith, HostM.eval_bind_of_ok (HostM.eval_get _)]
  dsimp only
  rw [if_pos released]
  rfl

theorem eval_executeWith_of_unreleased
    (unreleased : (world.contexts.get context).released = false) :
    (executeWith run executable context container controller).eval world =
      (withCurrent context do
        withContainer (world.containerName executable)
          (if (world.contexts.get context).frozen then none else container) context
          (withController (if (world.contexts.get context).frozen then none else controller) context
            ((world.executables.get executable).walk (run executable context) context))
        noteUse executable).eval world := by
  rw [executeWith, HostM.eval_bind_of_ok (HostM.eval_get _)]
  dsimp only
  rw [if_neg (by simp [unreleased]), HostM.eval_withCurrent, HostM.eval_withCurrent,
    HostM.eval_bind_of_ok (HostM.eval_get _)]
  rfl

/-- On a frozen context container and controller make no difference. -/
theorem eval_executeWith_of_frozen (frozen : (world.contexts.get context).frozen = true) :
    (executeWith run executable context container controller).eval world =
      (executeWith run executable context none none).eval world := by
  cases released : (world.contexts.get context).released with
  | true => rw [eval_executeWith_of_released released, eval_executeWith_of_released released]
  | false =>
      rw [eval_executeWith_of_unreleased released, eval_executeWith_of_unreleased released]
      simp only [frozen, if_true]

theorem current_executeWith (container : Option Service) (controller : Option Controller) :
    ((executeWith run executable context container controller).eval world).2.current =
        world.current ∧
      ((executeWith run executable context container controller).eval world).2.holdings =
        world.holdings := by
  cases released : (world.contexts.get context).released with
  | true => simp [eval_executeWith_of_released released]
  | false => simp [eval_executeWith_of_unreleased released, HostM.eval_withCurrent, World.leaving]

/-- On a context that takes changes the controlled segments are run between the container's
installation and its removal. -/
theorem eval_executeWith_of_open (unfrozen : (world.contexts.get context).frozen = false)
    (unreleased : (world.contexts.get context).released = false) :
    (executeWith run executable context container controller).eval world =
      let (outcome, ended) := (withController controller context
        ((world.executables.get executable).walk (run executable context) context)).eval
          (world.begun executable context container)
      (outcome, ended.finishing world executable context container outcome) := by
  rcases evaluated : (withController controller context
    ((world.executables.get executable).walk (run executable context) context)).eval
      (world.begun executable context container) with ⟨outcome, ended⟩
  have within :
      (withContainer (world.containerName executable) container context
        (withController controller context
          ((world.executables.get executable).walk (run executable context) context))).eval
            (world.entering context) =
        (outcome, ended.puttingBack context (world.containerName executable) container
          (world.contained? executable context)) := by
    cases container with
    | none => exact evaluated
    | some service =>
        rw [World.begun] at evaluated
        have installed := eval_setService_of_open (world.entering context) unfrozen unreleased
          (world.containerName executable) service
        rw [HostM.eval_withContainer installed, evaluated]
        rfl
  rw [eval_executeWith_of_unreleased unreleased, HostM.eval_withCurrent]
  simp only [unfrozen, Bool.false_eq_true, if_false]
  cases outcome with
  | error error => rw [HostM.eval_bind_of_error within]; rfl
  | ok value => rw [HostM.eval_bind_of_ok within]; rfl

/-- Without container and controller nothing but the segments decides how a run ends. -/
theorem outcome_executeWith (unreleased : (world.contexts.get context).released = false) :
    ((executeWith run executable context none none).eval world).1 =
      (((world.executables.get executable).walk (run executable context) context).eval
        (world.entering context)).1 := by
  have within :
      (withContainer (world.containerName executable) none context
        (withController none context
          ((world.executables.get executable).walk (run executable context) context))).eval
            (world.entering context) =
        ((world.executables.get executable).walk (run executable context) context).eval
          (world.entering context) := rfl
  rw [eval_executeWith_of_unreleased unreleased, HostM.eval_withCurrent]
  simp only [ite_self]
  rw [HostM.eval_bind, within]
  rcases (Executable.walk _ _ _).eval (world.entering context) with ⟨_ | _, ended⟩ <;> rfl

/-- The service of the container's name is put back behind the stages of a run, if the context
takes changes then. -/
theorem get?_behind_stages {ended behind : World} {outcome : Except ExecutionError Unit}
    {service : Service}
    (finished : ended.finishing world executable context (some service) outcome = behind)
    (known : context.index < behind.contexts.size)
    (unfrozen : (behind.contexts.get context).frozen = false)
    (unreleased : (behind.contexts.get context).released = false) :
    (behind.contexts.get context).services.get? (world.containerName executable) =
      world.contained? executable context := by
  have contexts : behind.contexts = (ended.puttingBack context (world.containerName executable)
      (some service) (world.contained? executable context)).contexts := by
    rw [← finished]
    cases outcome <;> rfl
  rw [contexts] at known unfrozen unreleased ⊢
  exact get?_puttingBack rfl known unfrozen unreleased

/-- Without a controller a frozen context stays frozen. -/
theorem frozen_execute (container : Option Service)
    (frozen : (world.contexts.get context).frozen = true) :
    (((execute executable context container none).eval world).2.contexts.get context).frozen =
      true := by
  have moves : (execute executable context container none).Keeps World.Moves :=
    World.Moves.heedless.executing.execute executable context container nofun
  obtain ⟨added, course⟩ := moves world
  exact course.frozen frozen

/-- Whatever its segments and its controller do, a run leaves the current context as it was.
On a context that takes changes it goes through the stages of a bracketed run, and a
container stands under its name when they begin.  Behind the run there stands what did
before, if the context is there and takes changes.  On a frozen context container and
controller make no difference, and on a released one nothing is done. -/
theorem execute_bracketed (executable : ExecutableId) (context : ContextId)
    (container : Option Service) (controller : Option Controller) (world : World) :
    let document := world.executables.get executable
    let name := document.setting.options.containerService
    let perform := Stage.perform (fun program => runFor executable context program.run) document
      context controller
    let begun := world.begun executable context container
    let result := (execute executable context container controller).eval world
    (result.2.current = world.current ∧ result.2.holdings = world.holdings) ∧
    ((world.contexts.get context).frozen = false → (world.contexts.get context).released = false →
      (∃ passages ended,
        Performs perform begun passages ended ∧
        Bracketed document.segments.length controller.isSome passages result.1 ∧
        result.2 = ended.finishing world executable context container result.1) ∧
      begun.current = some context ∧
      ∀ service, container = some service → context.index < world.contexts.size →
        (begun.contexts.get context).services.get? name = some service) ∧
    (∀ service, container = some service → context.index < result.2.contexts.size →
      (result.2.contexts.get context).frozen = false →
      (result.2.contexts.get context).released = false →
      (result.2.contexts.get context).services.get? name =
        (world.contexts.get context).services.get? name) ∧
    ((world.contexts.get context).frozen = true →
      result = (execute executable context none none).eval world) ∧
    ((world.contexts.get context).released = true →
      result = (.error (.ofContext .released), world)) := by
  intro document name perform begun result
  have frozenAlike (frozen : (world.contexts.get context).frozen = true) :
      result = (execute executable context none none).eval world :=
    eval_executeWith_of_frozen frozen
  have releasedUntouched (released : (world.contexts.get context).released = true) :
      result = (.error (.ofContext .released), world) :=
    eval_executeWith_of_released released
  have staged (unfrozen : (world.contexts.get context).frozen = false)
      (unreleased : (world.contexts.get context).released = false) :
      ∃ passages ended,
        Performs perform begun passages ended ∧
        Bracketed document.segments.length controller.isSome passages result.1 ∧
        result.2 = ended.finishing world executable context container result.1 := by
    obtain ⟨passages, ended, outcome, evaluated, performs, bracketed⟩ :=
      exists_bracketed (fun program => runFor executable context program.run) context document
        controller begun
    have finished :
        result = (outcome, ended.finishing world executable context container outcome) :=
      (eval_executeWith_of_open unfrozen unreleased).trans (by rw [evaluated])
    have outcomeOf : result.1 = outcome := congrArg Prod.fst finished
    rw [← outcomeOf] at bracketed finished
    exact ⟨passages, ended, performs, bracketed, congrArg Prod.snd finished⟩
  refine ⟨current_executeWith container controller, fun unfrozen unreleased =>
    ⟨staged unfrozen unreleased, ?_, ?_⟩, ?_, frozenAlike, releasedUntouched⟩
  · cases container <;> rfl
  · rintro service rfl known
    exact get?_installing (world.entering context) known service
  · rintro service rfl known unfrozen unreleased
    cases released : (world.contexts.get context).released with
    | true => rw [releasedUntouched released]
    | false =>
        cases frozen : (world.contexts.get context).frozen with
        | true =>
            -- A context does not thaw, so it would still be frozen.
            rw [frozenAlike frozen, frozen_execute none frozen] at unfrozen
            cases unfrozen
        | false =>
            obtain ⟨passages, ended, -, -, finished⟩ := staged frozen released
            exact get?_behind_stages finished.symm known unfrozen unreleased

end Runs

/-- A host with a document that replaces the container of its run, and then fails. -/
def replacingHost : World where
  executables := ⟨[{
    documentName := "x", partition := "", timestamp := ⟨0⟩, lastUsed := ⟨0⟩
    setting := { registry := ⟨0⟩, sourced := false, options := {} }
    segments := [.literal "a" .start,
      .program "x" "m" ⟨1, 2⟩ ⟨0⟩ ⟨⟨[], .ok ()⟩,
        .ask (.setService "container" (.text "mine")) fun _ => .fail (.ofDescription "spoilt")⟩] }]⟩
  contexts := ⟨[{
    output := ⟨0⟩, errorOutput := ⟨1⟩, services := ⟨[("container", .text "old")]⟩ }]⟩
  sinks := ⟨[{}, {}]⟩

theorem execute_bracketed_replacing :
    let result := (execute ⟨0⟩ ⟨0⟩ (some (.text "box"))
      (some (Observer.controller "container" none .nothing))).eval replacingHost
    (replacingHost.contexts.get ⟨0⟩).frozen = false ∧
      (replacingHost.contexts.get ⟨0⟩).released = false ∧
      result.1 = .error ((ExecutionError.ofDescription "spoilt").passedThrough ⟨"x", ⟨1, 2⟩⟩) ∧
      (∃ passages, Bracketed 2 true passages result.1) ∧
      (result.2.contexts.get ⟨0⟩).services.get? "container" = some (.text "old") := by
  intro result
  obtain ⟨-, staged, restored, -⟩ := execute_bracketed ⟨0⟩ ⟨0⟩ (some (.text "box"))
    (some (Observer.controller "container" none .nothing)) replacingHost
  obtain ⟨⟨passages, _, -, bracketed, -⟩, -⟩ := staged rfl rfl
  exact ⟨rfl, rfl, rfl, ⟨passages, bracketed⟩, restored _ rfl (by decide) rfl rfl⟩

end DocumentHost
