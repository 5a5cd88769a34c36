import DocumentHost.Proofs.Host.KnownTags
import DocumentHost.Proofs.Host.Obtaining
import DocumentHost.Proofs.Host.Optimising

/-!
# Compiled documents have the effect of their raw segments

A document with scriptlets whose programs can stand alone is compiled, and executing what
it is compiled to has the effect of a walk along its raw segments.
-/

namespace DocumentHost

/-- Execute segments against a context, in the place of those of an executable. -/
def executeSegments (executable : ExecutableId) (documentName : String) (segments : List Segment)
    (context : ContextId) (container : Option Service := none) : HostM ExecutionError Unit := do
  if ((← get).contexts.get context).released then throw (.ofContext .released)
  withCurrent context do
    let world ← get
    let name := (world.executables.get executable).setting.options.containerService
    let frozen := (world.contexts.get context).frozen
    withContainer name (if frozen then none else container) context
      (walkSegments (fun program => runFor executable context program.run) documentName context
        segments)
    noteUse executable

/-- An execution executes the segments of its executable. -/
theorem eval_execute (executable : ExecutableId) (context : ContextId)
    (container : Option Service) (world : World) :
    (execute executable context container).eval world =
      (executeSegments executable (world.executables.get executable).documentName
        (world.executables.get executable).segments context container).eval world := by
  rw [execute, executeWith, executeSegments, HostM.eval_bind_of_ok (HostM.eval_get _),
    HostM.eval_bind_of_ok (HostM.eval_get _)]
  split
  · rfl
  · simp only [ite_self]
    rw [HostM.eval_withCurrent, HostM.eval_withCurrent]
    rfl

section Execution

variable {executable : ExecutableId} {document : Document} {context : ContextId}
  {pairs : List (ExecutableId × ExecutableId)} {Lost : String → Prop}
  {first second : HostM ExecutionError Unit} {world other : World}

/-! ## Compiled segments -/

theorem performSegment_agree (document : Document) (context : ContextId)
    (known : (executable, executable) ∈ pairs) (segment : RawSegment) :
    Agree (Alike context pairs) (performSegment executable document context segment)
      (performSegment executable document context segment) := by
  unfold performSegment
  split
  · exact (Alike.writeText_agree .output segment.text).convert _
  · exact Alike.agreeUnless_iff.1
      ((Alike.lockstep context).runFor_agree known (World.programOf_asks _))

/-- The record of an adapter is not noticed. -/
theorem Refines.record (refines : Refines pairs document.name context Lost first second)
    (adapter : AdapterId) :
    Refines pairs document.name context Lost first
      (inContext context (Context.addAdapter adapter) >>= fun _ => second) := by
  intro world other alike
  have unreleased := alike.refl_right.unreleased
  obtain ⟨recorded, added⟩ : ∃ recorded,
      (other.contexts.get context).addAdapter adapter = .ok ((), recorded) := by
    simp only [Context.addAdapter, Context.ensureOpen, unreleased]
    exact ⟨_, rfl⟩
  have forgets : recorded.forgetAdapters = (other.contexts.get context).forgetAdapters := by
    rw [Context.addAdapter, Outcome.bind_eq_ok_iff] at added
    obtain ⟨_, _, equal⟩ := added
    cases equal
    rfl
  have evaluated : (inContext context (Context.addAdapter adapter)).eval other =
      (.ok (), other.modifyContext context fun _ => recorded) := by
    refine HostM.eval_convert_of_ok ?_
    rw [HostM.eval_onContext, added]
  rw [HostM.eval_bind_of_ok evaluated]
  apply refines
  have replaced : Alike context pairs
      (world.modifyContext context fun _ => world.contexts.get context)
      (other.modifyContext context fun _ => recorded) :=
    alike.replace (alike.context_eq.trans forgets.symm) alike.unreleased
  rwa [World.modifyContext_get] at replaced

/-- By induction on the compiled segments. -/
theorem compiled_refines (known : (executable, executable) ∈ pairs) {origin : World}
    {setting : Setting} {raw : List RawSegment} {segments : List Segment}
    (compiled : List.Forall₂ (fun segment result =>
      origin.miniSegment setting document true segment = .ok result) raw segments) :
    Refines pairs document.name context (fun _ => False)
      (walkRaw executable document context raw)
      (walkSegments (fun program => runFor executable context program.run) document.name context
        segments) := by
  induction compiled with
  | nil => exact .pure
  | @cons segment result rest others segmentCompiled _ ih =>
      have performed := Refines.of_agree document.name (fun _ => False)
        (performSegment_agree document context known segment) segment.position segment.position
      obtain ⟨kind, text, tag, position⟩ := segment
      simp only [World.miniSegment] at segmentCompiled
      split at segmentCompiled
      · cases segmentCompiled
        exact performed.bind ih
      · cases segmentCompiled
      · split at segmentCompiled
        · cases segmentCompiled
        · cases segmentCompiled
          exact (performed.bind ih).record _

/-! ## Brackets -/

/-- An operation on a context that leaves its output where it is. -/
def Context.KeepsOutput {α : Type}
    (operation : Context → Except ContextError (α × Context)) : Prop :=
  ∀ context value changed, operation context = .ok (value, changed) →
    changed.output = context.output

/-- Such an operation does not look at what has been written. -/
theorem eval_onContext_appendOutput {α : Type}
    {operation : Context → Except ContextError (α × Context)} (keeps : Context.KeepsOutput operation)
    (known : context.index < world.contexts.size) (text : String) :
    ((onContext context operation).eval (world.appendOutput context text)).2 =
      ((onContext context operation).eval world).2.appendOutput context text := by
  have contexts : (world.appendOutput context text).contexts = world.contexts := rfl
  rw [HostM.eval_onContext, HostM.eval_onContext, contexts]
  cases carriedOut : operation (world.contexts.get context) with
  | error error => rfl
  | ok result =>
      obtain ⟨value, changed⟩ := result
      have output := keeps _ _ _ carriedOut
      simp only [World.appendOutput, World.modifyContext, Arena.get_modify_self _ _ known, output]

theorem restoreContainer_agree (context : ContextId)
    (pairs : List (ExecutableId × ExecutableId)) (name : String) (previous : Option Service) :
    Agree (Alike context pairs) (restoreContainer name previous context)
      (restoreContainer name previous context) := by
  cases previous with
  | some service => exact Alike.onContext_agree (.setService name service)
  | none => exact Alike.onContext_agree (.removeService name)

theorem eval_restoreContainer_appendOutput (name : String) (previous : Option Service)
    (known : context.index < world.contexts.size) (text : String) :
    ((restoreContainer name previous context).eval (world.appendOutput context text)).2 =
      ((restoreContainer name previous context).eval world).2.appendOutput context text := by
  have kept {check : Except ContextError Unit} {value : Option Service} {context : Context}
      {given : Option Service} {changed : Context}
      (equal : (do check; return (value, context)) = Except.ok (given, changed)) :
      context = changed := by
    rw [Outcome.bind_eq_ok_iff] at equal
    obtain ⟨_, _, equal⟩ := equal
    cases equal
    rfl
  cases previous with
  | some service =>
      refine eval_onContext_appendOutput (fun context value changed equal => ?_) known text
      rw [← kept equal]
  | none =>
      refine eval_onContext_appendOutput (fun context value changed equal => ?_) known text
      rw [← kept equal]

/-- The container is there for both, and taken away from both. -/
theorem withContainer_sameEffect {documentName : String}
    (refines : Refines pairs documentName context Lost first second) (name : String)
    (container : Option Service) (alike : Alike context pairs world other)
    (possible : container = none ∨ (world.contexts.get context).frozen = false) :
    SameEffect (Alike context pairs) documentName context Lost
      ((withContainer name container context first).eval world)
      ((withContainer name container context second).eval other) := by
  cases container with
  | none => exact refines world other alike
  | some service =>
      have mutable : (world.contexts.get context).frozen = false := possible.resolve_left nofun
      have installed : AgreeFrom (Alike context pairs) world other
          (inContext context (Context.setService name service))
          (inContext context (Context.setService name service)) :=
        (Alike.onContext_agree (.setService name service)).convert _ world other alike
      rcases installs : (inContext context (Context.setService name service)).eval world with
        ⟨outcome, behind⟩
      rcases otherInstalls : (inContext context (Context.setService name service)).eval other with
        ⟨otherOutcome, otherBehind⟩
      rw [AgreeFrom, installs, otherInstalls] at installed
      obtain ⟨rfl, behindAlike⟩ := installed
      cases outcome with
      | error error =>
          obtain ⟨value, set⟩ : ∃ value,
              (world.contexts.get context).setService name service = .ok value := by
            simp only [Context.setService, Context.ensureMutable, Context.ensureOpen, mutable,
              alike.unreleased]
            exact ⟨_, rfl⟩
          rw [inContext, HostM.eval_convert, HostM.eval_onContext, set] at installs
          cases installs
      | ok previous =>
          have restored := restoreContainer_agree context pairs name previous
          rw [HostM.eval_withContainer installs, HostM.eval_withContainer otherInstalls]
          rcases refines behind otherBehind behindAlike with ⟨completed, otherCompleted, related⟩ |
            ⟨error, position, otherPosition, lost, failed, otherFailed, related, excused⟩
          · exact .inl ⟨completed, otherCompleted, (restored _ _ related).2⟩
          · refine .inr ⟨error, position, otherPosition, lost, failed, otherFailed, ?_, excused⟩
            have knownThere : context.index < (second.eval otherBehind).2.contexts.size :=
              related.refl_right.known
            dsimp only
            rw [← eval_restoreContainer_appendOutput name previous knownThere lost]
            exact (restored _ _ related).2

theorem SameEffect.leaving {document : String}
    {first second : Except ExecutionError Unit × World} (before : World)
    (effect : SameEffect (Alike context pairs) document context Lost first second) :
    SameEffect (Indistinct context) document context Lost (first.1, first.2.leaving before)
      (second.1, second.2.leaving before) := by
  have left {world other : World} (indistinct : Indistinct context world other) :
      Indistinct context (world.leaving before) (other.leaving before) := by
    refine ⟨?_, indistinct.contexts⟩
    conv_lhs => rw [World.leaving, indistinct.rest]
    rfl
  rcases effect with ⟨completed, otherCompleted, related⟩ |
    ⟨error, position, otherPosition, lost, failed, otherFailed, related, excused⟩
  · exact .inl ⟨completed, otherCompleted, left related.indistinct⟩
  · exact .inr ⟨error, position, otherPosition, lost, failed, otherFailed, left related.indistinct,
      excused⟩

/-- What is said about the walks is said about the executions. -/
theorem execute_sameEffect {documentName : String} {pieces : List Segment}
    (refines : Refines [(executable, executable)] documentName context Lost
      (walkSegments (fun program => runFor executable context program.run) documentName context
        pieces)
      (walkSegments (fun program => runFor executable context program.run)
        (world.executables.get executable).documentName context
        (world.executables.get executable).segments))
    (speaks : world.SpeaksMini) (known : context.index < world.contexts.size)
    (unreleased : (world.contexts.get context).released = false) (container : Option Service) :
    SameEffect (Indistinct context) documentName context Lost
      ((executeSegments executable documentName pieces context container).eval world)
      ((execute executable context container).eval world) := by
  have entered : Alike context [(executable, executable)] (world.entering context)
      (world.entering context) :=
    ⟨.refl context _, speaks.of_eq ⟨rfl, rfl⟩ rfl, rfl, known, unreleased, by simp⟩
  have noted : Refines [(executable, executable)] documentName context Lost
      (noteUse executable) (noteUse executable) := by
    intro world other alike
    exact .inl ⟨rfl, rfl, (Alike.noteUse_agree (ε := ExecutionError) executable _ _ alike).2⟩
  have bracketed := withContainer_sameEffect refines
    (world.executables.get executable).setting.options.containerService
    (if (world.contexts.get context).frozen then none else container) entered ?possible
  case possible =>
    cases frozen : (world.contexts.get context).frozen with
    | true => exact .inl rfl
    | false => exact .inr frozen
  have effect := (bracketed.bind noted).leaving world
  rw [eval_execute, executeSegments, executeSegments, HostM.eval_bind_of_ok (HostM.eval_get _),
    HostM.eval_bind_of_ok (HostM.eval_get _)]
  simp only [unreleased, Bool.false_eq_true, if_false]
  rw [HostM.eval_withCurrent, HostM.eval_withCurrent]
  exact effect

/-! ## Compiled documents -/

theorem RawSegment.Known.join {setting : Setting} {segment next : RawSegment}
    (nextKnown : next.Known world setting) : (segment.join next).Known world setting :=
  nextKnown

theorem RawSegment.Known.absorbAfter {setting : Setting}
    {codeFor : String → String → Option String} {previous segment : RawSegment}
    (previousKnown : previous.Known world setting) (known : segment.Known world setting) :
    (absorbAfter codeFor previous segment).Known world setting := by
  rcases absorbAfter_eq codeFor previous segment with unchanged |
    ⟨tag, code, -, program, previousTag, tagged, -, absorbed⟩
  · rwa [unchanged]
  · intro _
    obtain ⟨otherTag, sameTag, isKnown⟩ := previousKnown program
    rw [previousTag, Option.some.injEq] at sameTag
    subst sameTag
    rw [absorbed]
    exact ⟨tag, tagged, isKnown⟩

theorem World.SpeaksMini.codeForLiteral_eq (speaks : world.SpeaksMini) (setting : Setting)
    (tag text code : String) (written : world.codeForLiteral setting tag text = some code) :
    code = Mini.codeForLiteral text := by
  obtain ⟨adapter, found, written⟩ := Option.bind_eq_some_iff.1 written
  obtain ⟨profile, isMini⟩ := speaks.mini _ adapter
    (World.mem_of_adapterForTag found)
  rw [isMini] at written
  exact (Option.some.inj written).symm

/-- Segments in known languages are compiled; the forms of those that can stand alone need
no further preparation. -/
theorem exists_miniSegments (document : Document) {setting : Setting}
    (segments : List RawSegment)
    (known : ∀ segment ∈ segments, segment.Known world setting)
    (alone : ∀ segment ∈ segments, segment.Standalone) :
    ∃ results, List.Forall₂ (fun segment result =>
        world.miniSegment setting document true segment = .ok result) segments results ∧
      ∀ other, (prepareSegments results).eval other = (.ok (), other) := by
  induction segments with
  | nil => exact ⟨[], .nil, fun _ => rfl⟩
  | cons segment rest ih =>
      obtain ⟨results, compiled, prepared⟩ := ih (fun other member => known other (by simp [member]))
        (fun other member => alone other (by simp [member]))
      obtain ⟨kind, text, tag, position⟩ := segment
      cases kind with
      | literal => exact ⟨.literal text position :: results, .cons rfl compiled, prepared⟩
      | program =>
          obtain ⟨language, rfl, isKnown⟩ := known _ (List.mem_cons_self ..) rfl
          obtain ⟨statements, continuable⟩ := alone _ (List.mem_cons_self ..) rfl
          obtain ⟨adapter, found⟩ := Option.isSome_iff_exists.1 isKnown
          let program := Mini.programOf ⟨text, document.place position, true⟩
          refine ⟨.program text language position adapter program :: results, .cons ?_ compiled, ?_⟩
          · simp only [World.miniSegment, found]
            rfl
          · intro other
            have parses : program.prepare = ⟨[], .ok ()⟩ := by
              simp only [program, Mini.programOf, Mini.statementsOf, continuable.parses]
              rfl
            rw [prepareSegments, HostM.eval_bind, HostM.eval_ofReported, parses, World.noteAll_nil]
            exact prepared other

theorem eval_makeExecutable {setting : Setting} {segments : List Segment}
    (prepared : ∀ other, (prepareSegments segments).eval other = (.ok (), other)) :
    (makeExecutable setting document segments).eval world =
      let added := world.executables.add
        { documentName := document.name
          partition := document.partition
          timestamp := document.timestamp
          setting
          segments
          lastUsed := world.clock }
      (.ok added.1, { world.tick with executables := added.2 }) := by
  rw [makeExecutable, HostM.eval_bind_of_ok (HostM.eval_readClock _)]
  dsimp only
  split
  · rw [HostM.eval_bind_of_ok (HostM.eval_convert_of_ok (prepared _))]
    rfl
  · rfl

/-- A document that can be taken apart into segments that can stand alone is compiled, and
each of its segments can be compiled by itself. -/
theorem newExecutable_of_split {origin behind : World} {setting : Setting} {raw : List RawSegment}
    (speaks : origin.SpeaksMini) (parser : setting.options.parser = scriptletsParser)
    (split : (splitDocument setting document).eval origin = (.ok raw, behind))
    (alone : ∀ segment ∈ raw, segment.Standalone) :
    ∃ pieces executable compiled,
      (compileSegments setting document true raw).eval behind = (.ok pieces, behind) ∧
      (newExecutable setting document).eval origin = (.ok executable, compiled) ∧
      (compiled.executables.get executable).documentName = document.name ∧
      List.Forall₂ (fun segment result =>
          behind.miniSegment setting document true segment = .ok result) raw pieces ∧
      List.Forall₂ (fun segment result =>
          behind.miniSegment setting document true segment = .ok result)
        (RawSegment.normalize (behind.codeForLiteral setting) raw)
        (compiled.executables.get executable).segments := by
  obtain ⟨rawKnown, still⟩ := splitDocument_known speaks split
  have univocal := still.speaks.univocal setting.registry
  have mini := still.speaks.mini setting.registry
  have codes := still.speaks.codeForLiteral_eq setting
  have known : ∀ segment ∈ raw, segment.Known behind setting := by
    intro segment member program
    obtain ⟨tag, tagged, isKnown⟩ := rawKnown segment member program
    rw [still.adapters.adapterForTag (speaks.univocal _)] at isKnown
    exact ⟨tag, tagged, isKnown⟩
  have mergedKnown : ∀ segment ∈ RawSegment.normalize (behind.codeForLiteral setting) raw,
      segment.Known behind setting :=
    RawSegment.forall_joinRuns (fun _ _ _ next _ => next.join)
      (RawSegment.forall_absorbLiterals (fun _ _ previous next => previous.absorbAfter next)
        (RawSegment.forall_joinRuns (fun _ _ _ next _ => next.join) known))
  have mergedAlone : ∀ segment ∈ RawSegment.normalize (behind.codeForLiteral setting) raw,
      segment.Standalone :=
    RawSegment.forall_joinRuns (fun _ _ => .join)
      (RawSegment.forall_absorbLiterals (fun previous _ _ next => next.absorbAfter codes previous)
        (RawSegment.forall_joinRuns (fun _ _ => .join) alone))
  obtain ⟨pieces, piecesCompiled, -⟩ := exists_miniSegments document raw known alone
  obtain ⟨segments, compiled, prepared⟩ :=
    exists_miniSegments document _ mergedKnown mergedAlone
  have apart : (compileSegments setting document true raw).eval behind = (.ok pieces, behind) := by
    rw [World.eval_compileSegments mini, Outcome.mapM_eq_ok_iff.2 piecesCompiled]
  have produced : (compileSegments setting document true
      (RawSegment.normalize (behind.codeForLiteral setting) raw)).eval behind =
        (.ok segments, behind) := by
    rw [World.eval_compileSegments mini, Outcome.mapM_eq_ok_iff.2 compiled]
  have made : (newExecutable setting document).eval origin =
      (makeExecutable setting document segments).eval behind := by
    rw [eval_newExecutable_of_split parser split]
    exact HostM.eval_bind_of_ok produced
  rw [eval_makeExecutable prepared] at made
  refine ⟨pieces, _, _, apart, made, ?_⟩
  dsimp only
  rw [Arena.get_add_self]
  exact ⟨rfl, piecesCompiled, compiled⟩

end Execution

end DocumentHost
