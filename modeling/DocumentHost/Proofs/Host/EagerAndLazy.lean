import DocumentHost.Proofs.Host.Mistakes
import DocumentHost.Proofs.Host.SownTwins
import DocumentHost.Proofs.Mini.Running

/-!
# Checking ahead of running, and checking by running

Programs that are checked when a document is compiled fail then with the errors with which they
would fail when they are run.  Once they have passed, it makes no difference that they have been
checked: no run fails because of a mistake in them, checking them again does nothing, and runs of
the document go on as if it had been compiled without checks.
-/

namespace DocumentHost

open World

/-! ## Two hosts in step -/

/-- What is done in two hosts in which a document has been compiled: the document is run in both
and includes nothing but its in-flow codes, under numbers that were free, or it is prepared in one
of them, or something else is done in both that looks up no compiled form. -/
inductive Jointly (setting : Setting) (document : Document) (free : Nat → Prop)
    (executable : ExecutableId) : World × World → World × World → Prop where
  | execute {eager lazy : World} (context : ContextId) (container : Option Service)
      {controller : Option Controller}
      (even : ∀ present, controller = some present →
        present.Even setting document free executable context)
      (own : ∀ started, Begins executable context container controller lazy started →
        IncludesOwn document free executable (includeLimit + 1)
          (.ofExecution lazy executable context) started) :
      Jointly setting document free executable (eager, lazy)
        (((execute executable context container controller).eval eager).2,
          ((execute executable context container controller).eval lazy).2)
  | prepareEager (eager lazy : World) :
      Jointly setting document free executable (eager, lazy)
        (((prepare executable).eval eager).2, lazy)
  | prepareLazy (eager lazy : World) :
      Jointly setting document free executable (eager, lazy)
        (eager, ((prepare executable).eval lazy).2)
  | operate {ε α : Type} {operation : HostM ε α} (eager lazy : World)
      (blind : Blind operation) :
      Jointly setting document free executable (eager, lazy)
        ((operation.eval eager).2, (operation.eval lazy).2)

section Runs

variable {setting : Setting} {document : Document} {free : Nat → Prop}
  {executable : ExecutableId} {hosts reached : World × World}

theorem Jointly.abreast (step : Jointly setting document free executable hosts reached)
    (abreast : Abreast setting document free executable hosts.1 hosts.2) :
    Abreast setting document free executable reached.1 reached.2 := by
  cases step with
  | execute context container even own =>
      exact (abreast.execute_agree context container even own).2
  | prepareEager eager lazy =>
      dsimp only
      rw [abreast.sound.eval_prepare]
      exact abreast
  | prepareLazy eager lazy =>
      dsimp only
      rw [abreast.lazySound.eval_prepare]
      exact abreast
  | operate eager lazy blind => exact (Abreast.of_blind blind _ _ abreast).2

/-- By induction on what is done. -/
theorem Abreast.of_jointly
    (steps : Relation.ReflTransGen (Jointly setting document free executable) hosts reached)
    (abreast : Abreast setting document free executable hosts.1 hosts.2) :
    Abreast setting document free executable reached.1 reached.2 := by
  induction steps with
  | refl => exact abreast
  | tail _ step ih => exact step.abreast ih

end Runs

/-! ## What has been checked -/

/-- An executable has been checked when it was compiled, with Mini adapters: it is that of a
document that was compiled with checking, or that of an in-flow code of such a document. -/
inductive World.CheckedAhead (later : World) : ExecutableId → Prop where
  | document {setting : Setting} {document : Document} {before behind : World}
      {executable : ExecutableId} (mini : before.MiniRegistry setting.registry)
      (made : (newExecutable (setting.preparing true) document).eval before =
        (.ok executable, behind)) (programs : SamePrograms behind later) :
      later.CheckedAhead executable
  | inFlow {setting : Setting} {document : Document} {before behind : World}
      {executable inFlow : ExecutableId} {code : InFlowCode}
      (mini : before.MiniRegistry setting.registry)
      (made : (newExecutable (setting.preparing true) document).eval before =
        (.ok executable, behind))
      (member : code ∈ before.codesAhead (setting.preparing false) document)
      (compiled : code.Made (setting.preparing true) document before later inFlow) :
      later.CheckedAhead inFlow

/-- What has been checked stays sound. -/
theorem World.CheckedAhead.sound {later : World} {executable : ExecutableId}
    (checked : later.CheckedAhead executable) : (later.executables.get executable).Sound := by
  cases checked with
  | document mini made programs =>
      obtain ⟨segments, form⟩ := Form.of_newExecutable made
      have program := programs.programs executable form.known
      exact (sound_of_newExecutable mini made).of_same program.segments.symm
        program.documentName.symm
  | @inFlow setting document _ _ _ _ code mini made member compiled =>
      have parses := ((newExecutable_eager_iff mini document).1 ⟨_, _, made⟩).2
      exact compiled.sound mini
        (parses _ (List.mem_append_left _ (List.mem_map_of_mem member)))

/-! ## The agreement -/

/-- A compilation with checking succeeds just if the one without does and the texts of all in-flow
codes and programs are Mini programs; if it fails because of a mistake, that is the error with
which the first other text fails when it is run.  When it has succeeded, then for good: checking
again does nothing, and no run of the document fails because of a mistake in its own segments or
in those of in-flow codes that were checked, its own or those of another document.  If no document
stood under the names of its in-flow codes, they are planted under them, the compilation without
checking comes to the same executable, and whatever is done afterwards in both hosts, runs of the
document have the same outcome in both and leave them as twins, as long as the document includes
nothing but its in-flow codes. -/
theorem eager_agrees_with_lazy {setting : Setting} {world : World}
    (mini : world.MiniRegistry setting.registry) (document : Document) :
    ((∃ executable after, (newExecutable (setting.preparing true) document).eval world =
        (.ok executable, after)) ↔
      (∃ executable after, (newExecutable (setting.preparing false) document).eval world =
        (.ok executable, after)) ∧
      ∀ fragment ∈ world.fragmentsAhead setting document, Mini.Parses fragment) ∧
    (∀ error, ((newExecutable (setting.preparing true) document).eval world).1 =
        .error (.preparation error) →
      Mini.FailsFirst (world.fragmentsAhead setting document) error) ∧
    ∀ executable after, (newExecutable (setting.preparing true) document).eval world =
        (.ok executable, after) →
      (∀ allowed later, Proceeds allowed after later →
        (prepare executable).eval later = (.ok (), later) ∧
        later.Spares executable (later.executables.get executable).segments ∧
        (∀ code ∈ world.codesAhead (setting.preparing false) document, ∀ id inFlow,
          code.Planted (setting.preparing true) document world later id inFlow →
          later.CheckedAhead inFlow) ∧
        ∀ inFlow, later.CheckedAhead inFlow →
          later.Spares executable (later.executables.get inFlow).segments) ∧
      ((∀ code ∈ world.codesAhead (setting.preparing false) document,
          world.Lacks (code.name document)) →
        (∀ code ∈ world.codesAhead (setting.preparing false) document, ∃ id inFlow,
          code.Planted (setting.preparing true) document world after id inFlow) ∧
        ∃ lazyAfter, (newExecutable (setting.preparing false) document).eval world =
            (.ok executable, lazyAfter) ∧
          ∀ eager lazy, Relation.ReflTransGen
              (Jointly setting document (world.Free document) executable)
              (after, lazyAfter) (eager, lazy) →
            Twins eager lazy ∧
            ∀ context container controller,
              (∀ present, controller = some present →
                present.Even setting document (world.Free document) executable context) →
              (∀ started, Begins executable context container controller lazy started →
                IncludesOwn document (world.Free document) executable (includeLimit + 1)
                  (.ofExecution lazy executable context) started) →
              ((execute executable context container controller).eval eager).1 =
                  ((execute executable context container controller).eval lazy).1 ∧
                Twins ((execute executable context container controller).eval eager).2
                  ((execute executable context container controller).eval lazy).2) := by
  refine ⟨newExecutable_eager_iff mini document,
    fun error => failsFirst_of_newExecutable_eager mini,
    fun executable after made => ⟨fun allowed later proceeds => ?_, fun lacks => ⟨?_, ?_⟩⟩⟩
  · have spared (inFlow : ExecutableId) (checked : later.CheckedAhead inFlow) :
        later.Spares executable (later.executables.get inFlow).segments :=
      spares fun _ => checked.sound.not_mistakable
    have own : later.CheckedAhead executable := .document mini made proceeds.programs
    exact ⟨own.sound.eval_prepare, spared executable own,
      fun code member id inFlow planted => .inFlow mini made member planted.form, spared⟩
  · intro code member
    rw [← codesAhead_eq mini made, World.codesAhead] at lacks member
    by_cases parser : (setting.preparing true).options.parser = scriptletsParser
    · rw [if_pos parser] at lacks member
      exact ((planted_of_newExecutable parser lacks made).2 code member).2
    · rw [if_neg parser] at member
      cases member
  · obtain ⟨lazyAfter, lazyMade, abreast⟩ := abreast_of_newExecutable mini lacks made
    refine ⟨lazyAfter, lazyMade, fun eager lazy steps => ?_⟩
    have still : Abreast setting document (world.Free document) executable eager lazy :=
      Abreast.of_jointly steps abreast
    refine ⟨still.twins, fun context container controller even own => ?_⟩
    obtain ⟨same, behind⟩ := still.execute_agree context container even own
    exact ⟨same, behind.twins⟩

section Printing

/-- The text and the adapter of a program. -/
def Segment.source? : Segment → Option (String × AdapterId)
  | .literal _ _ => none
  | .program text _ _ adapter _ => some (text, adapter)

/-- What a document includes that is one program, and its program one request. -/
theorem Activity.Includes.of_request {levels : Nat} {site other : Site} {document : Executable}
    {world : World} {name text : String} {adapter : AdapterId} {statements : List Mini.Statement}
    {request : Request} {next : Except ExecutionError request.Reply → Script Unit}
    (written : ∀ segment ∈ document.segments,
      segment.OfText document.documentName)
    (single : document.segments.map Segment.source? = [some (text, adapter)])
    (parsed : Mini.parse text = .ok statements)
    (asks : Mini.runProgram statements = .ask request next)
    (ends : ∀ reply, ∃ outcome, next reply = .done outcome)
    (includes : Activity.Includes levels (.walk site document) world other name) :
    ∃ asked, request = .includeDocument asked ∧ ((other = site ∧ name = asked) ∨
      ∃ recorded, (inContext site.context (Context.addAdapter adapter)).eval world =
          (.ok (), recorded) ∧
        Activity.Includes levels (.including site asked) recorded other name) := by
  cases includes with
  | @program _ _ _ _ front rest _ _ position _ _ _ _ recorded _ segments walked begun inner =>
      rw [segments, List.map_append, List.map_cons] at single
      obtain ⟨rfl, rfl⟩ : front = [] ∧ rest = [] := by
        have lengths := congrArg List.length single
        simp only [List.length_append, List.length_cons, List.length_map, List.length_nil]
          at lengths
        exact ⟨List.length_eq_zero_iff.1 (by omega), List.length_eq_zero_iff.1 (by omega)⟩
      cases single
      cases walked
      obtain ⟨isScriptlet, rfl⟩ := written _ (by rw [segments]; exact List.mem_cons_self)
      have run : (Mini.programOf ⟨text, ⟨document.documentName, position⟩, isScriptlet⟩).run =
          .ask request next := by
        rw [Mini.programOf, Mini.statementsOf, parsed]
        exact asks
      rw [run] at inner
      -- the program asks once, and then it is done
      have only {asked : String} {between : World}
          (comes : Comes (site.serveWithin levels) recorded (.ask request next)
            (.includeDocument asked) between) :
          request = .includeDocument asked ∧ between = recorded := by
        cases comes with
        | here => exact ⟨rfl, rfl⟩
        | later further =>
            obtain ⟨outcome, ended⟩ := ends ((site.serveWithin levels request).eval recorded).1
            rw [ended] at further
            cases further
      cases inner with
      | asked comes => exact ⟨name, (only comes).1, .inl ⟨rfl, rfl⟩⟩
      | nested comes inner =>
          obtain ⟨isAsked, rfl⟩ := only comes
          exact ⟨_, isAsked, .inr ⟨_, begun, inner⟩⟩

/-- A document that is one program, which includes one in-flow code, which includes nothing. -/
theorem includesOwn_of_request {document : Document} {free : Nat → Prop}
    {executable included : ExecutableId}
    {context : ContextId} {walked : Executable} {started asking between including : World}
    {number levels : Nat} {text code : String} {adapter other : AdapterId}
    {statements : List Mini.Statement} {request : Request}
    {next : Except ExecutionError request.Reply → Script Unit}
    (isFree : free number)
    (written : ∀ segment ∈ walked.segments, segment.OfText walked.documentName)
    (single : walked.segments.map Segment.source? = [some (text, adapter)])
    (parsed : Mini.parse text =
      .ok [.includeDocument (.text (inFlowDocumentName document number))])
    (begun : (inContext context (Context.addAdapter adapter)).eval started = (.ok (), asking))
    (obtained : (obtainExecutable (asking.includeSetting executable)
      (inFlowDocumentName document number)).eval asking.deeper = (.ok included, between))
    (records : between.recording (asking.executables.get executable)
      (inFlowDocumentName document number) included = including)
    (codeWritten : ∀ segment ∈ (including.executables.get included).segments,
      segment.OfText (including.executables.get included).documentName)
    (codeSingle : (including.executables.get included).segments.map Segment.source? =
      [some (code, other)])
    (codeParsed : Mini.parse code = .ok statements)
    (asks : Mini.runProgram statements = .ask request next)
    (ends : ∀ reply, ∃ outcome, next reply = .done outcome)
    (plain : ∀ name, request ≠ .includeDocument name) :
    IncludesOwn document free executable (levels + 1) (.walk ⟨executable, context⟩ walked)
      started := by
  intro site name includes
  obtain ⟨asked, isAsked, ⟨rfl, rfl⟩ | ⟨recorded, begins, further⟩⟩ := includes.of_request written
    single parsed (Mini.runProgram_include _) fun reply => ⟨reply, rfl⟩
  · cases isAsked
    exact ⟨rfl, number, isFree, rfl⟩
  · cases isAsked
    rw [begun] at begins
    cases begins
    cases further with
    | inside _ _ _ obtains isRecorded _ inside =>
        rw [obtained] at obtains
        cases obtains
        obtain rfl := records.symm.trans isRecorded
        obtain ⟨asked, isAsked, -⟩ := inside.of_request codeWritten codeSingle codeParsed asks ends
        exact absurd isAsked (plain asked)

/-- A host that speaks Mini under two tags and keeps its documents in memory. -/
def duoHost : World where
  toLanguages := .of
    [⟨Mini.adapter (.ofTag "Mini" "mini"), true⟩, ⟨Mini.adapter (.ofTag "B" "b"), true⟩]
    [[⟨0⟩, ⟨1⟩]]
  source := some (.inMemory "m")
  sinks := ⟨[{}, {}]⟩

theorem duoHost_lacks (name : String) : duoHost.Lacks name :=
  ⟨rfl, nofun⟩

def duoSetting : Setting where
  registry := ⟨0⟩
  sourced := true
  options := { parser := scriptletsParser, defaultTag := some "mini" }

/-- A page that prints a number by in-flow code. -/
def printing (number : String) : Document where
  name := "page"
  partition := "m"
  text := "<%:b print " ++ number ++ "%>"
  timestamp := ⟨0⟩

/-- The page has been compiled, and a context has been made. -/
def World.withPage (world : World) (ahead : Bool) (number : String) : World :=
  ((newContext ⟨0⟩ ⟨1⟩ : HostM Empty ContextId).eval
    ((newExecutable (duoSetting.preparing ahead) (printing number)).eval world).2).2

theorem duoHost_mini (registry : RegistryId) : duoHost.MiniRegistry registry := by
  obtain ⟨_ | _⟩ := registry
  · intro id member
    rcases List.mem_cons.1 member with rfl | member
    · exact ⟨_, rfl⟩
    · obtain rfl := List.mem_singleton.1 member
      exact ⟨_, rfl⟩
  · exact fun _ member => absurd member List.not_mem_nil

theorem duoHost_miniOnly : duoHost.MiniOnly :=
  .of_unused duoHost_mini rfl fun _ => rfl

/-- The page has been compiled without checks, and is run. -/
def duoStarted : World :=
  (duoHost.withPage false "1").begun ⟨1⟩ ⟨0⟩ none

/-- The page is about to include its in-flow code. -/
def duoAsking : World :=
  ((inContext ⟨0⟩ (Context.addAdapter ⟨0⟩)).eval duoStarted).2

def duoObtaining : Except ParsingError ExecutableId × World :=
  (obtainExecutable (duoAsking.includeSetting ⟨1⟩) (inFlowDocumentName (printing "1") 0)).eval
    duoAsking.deeper

def duoIncluding : World :=
  duoObtaining.2.recording (duoAsking.executables.get ⟨1⟩) (inFlowDocumentName (printing "1") 0) ⟨0⟩

/-- How the page is compiled and run. -/
theorem printing_runs :
    inFlowDocumentName (printing "1") 0 = "_IN_FLOW_9f5bc1f7da622f07_0" ∧
      ((newExecutable (duoSetting.preparing true) (printing "1")).eval duoHost).1 = .ok ⟨1⟩ ∧
      ((duoHost.withPage false "1").contexts.get ⟨0⟩).frozen = false ∧
      (duoHost.withPage false "1").executables.size = 2 ∧
      ((duoHost.withPage false "1").executables.get ⟨1⟩).segments.map Segment.source? =
        [some ("include (\"_IN_FLOW_9f5bc1f7da622f07_0\");", ⟨0⟩)] ∧
      ((inContext ⟨0⟩ (Context.addAdapter ⟨0⟩)).eval duoStarted).1 = .ok () ∧
      duoObtaining.1 = .ok ⟨0⟩ ∧
      (duoIncluding.executables.get ⟨0⟩).segments.map Segment.source? =
        [some ("print 1", ⟨1⟩)] ∧
      (((execute ⟨1⟩ ⟨0⟩).eval (duoHost.withPage true "1")).2.sinks.get ⟨0⟩).text = "1" := by
  decide +kernel

/-- What has been compiled is still there when a document is run that includes something. -/
theorem samePrograms_including (world : World) (executable included : ExecutableId)
    (context : ContextId) (adapter : AdapterId) (setting : Setting) (name : String)
    (document : Executable) :
    let started := world.begun executable context none
    let asking := ((inContext context (Context.addAdapter adapter)).eval started).2
    SamePrograms world (((obtainExecutable setting name).eval asking.deeper).2.recording
      document name included) := by
  intro started asking
  have trans {first second third : World} := @SamePrograms.lasting.trans first second third
  have begins : SamePrograms world started := .of_executables rfl
  have asks : SamePrograms started asking :=
    SamePrograms.tolerant.inContext context (.addAdapter adapter) started
  have descends : SamePrograms asking asking.deeper := .of_executables rfl
  have obtains := SamePrograms.heedless.executing.obtains setting name asking.deeper
  have holds (between : World) :
      SamePrograms between (between.holdingMore { executables := [included] }) :=
    .of_executables rfl
  have records (between : World) :
      SamePrograms between (between.recording document name included) :=
    trans (holds between) (Unmoved.recordDependency _ _ _).programs
  exact trans (trans (trans (trans begins asks) descends) obtains) (records _)

/-- What has been compiled is Mini, and so it is when the in-flow code is included. -/
theorem duoIncluding_written (id : ExecutableId) (known : id.index < 2) :
    (∀ segment ∈ ((duoHost.withPage false "1").executables.get id).segments,
      segment.OfText ((duoHost.withPage false "1").executables.get id).documentName) ∧
    ∀ segment ∈ (duoIncluding.executables.get id).segments,
      segment.OfText (duoIncluding.executables.get id).documentName := by
  let compiled := ((newExecutable (duoSetting.preparing false) (printing "1")).eval duoHost).2
  have written := ((Stays.newExecutable (duoSetting.preparing false) (printing "1") _
    duoHost_miniOnly).mini.compiled id).ofText
  have opened : SamePrograms compiled (duoHost.withPage false "1") :=
    (Proceeds.newContext (fun _ => False) ⟨0⟩ ⟨1⟩ compiled).programs
  have included : SamePrograms (duoHost.withPage false "1") duoIncluding :=
    samePrograms_including (duoHost.withPage false "1") ⟨1⟩ ⟨0⟩ ⟨0⟩ ⟨0⟩ _ _ _
  have size : compiled.executables.size = 2 := printing_runs.2.2.2.1
  have known : id.index < compiled.executables.size := Nat.lt_of_lt_of_eq known size.symm
  have first := opened.programs id known
  have last := included.programs id (Nat.lt_of_lt_of_le known opened.size)
  rw [← last.segments, ← last.documentName, ← first.segments, ← first.documentName]
  exact ⟨written, written⟩

/-- The page includes its in-flow code, and this includes nothing. -/
theorem includesOwn_printing :
    IncludesOwn (printing "1") (duoHost.Free (printing "1")) ⟨1⟩ (includeLimit + 1)
      (.ofExecution (duoHost.withPage false "1") ⟨1⟩ ⟨0⟩) duoStarted := by
  obtain ⟨inFlowName, -, -, -, outer, begun, obtained, inner, -⟩ := printing_runs
  have parsed : Mini.parse "include (\"_IN_FLOW_9f5bc1f7da622f07_0\");" =
      .ok [.includeDocument (.text (inFlowDocumentName (printing "1") 0))] := by
    rw [inFlowName]
    rfl
  have codeParsed : Mini.parse "print 1" = .ok [.print (.integer 1)] := rfl
  have asks : Mini.runProgram [.print (.integer 1)] =
      .ask (.write .output "1") .done := by
    simp only [Mini.runProgram, Mini.runStatements, Mini.step, Mini.evaluate, Script.pure_bind,
      Script.bind_assoc]
    exact Script.bind_pure _
  have plain (name : String) : Request.write .output "1" ≠ .includeDocument name := by
    intro isInclude
    cases isInclude
  exact includesOwn_of_request (duoHost_lacks _) (duoIncluding_written ⟨1⟩ (by decide)).1 outer parsed
    (Prod.fst_eq_iff.1 begun) (Prod.fst_eq_iff.1 obtained) rfl
    (duoIncluding_written ⟨0⟩ (by decide)).2 inner codeParsed asks (fun reply => ⟨reply, rfl⟩) plain

/-- A page is compiled with checks and without, and run in both hosts in a new context. -/
theorem eager_agrees_with_lazy_printing :
    duoHost.MiniRegistry duoSetting.registry ∧
      (∀ code ∈ duoHost.codesAhead (duoSetting.preparing false) (printing "1"),
        duoHost.Lacks (code.name (printing "1"))) ∧
      (∀ fragment ∈ duoHost.fragmentsAhead duoSetting (printing "1"), Mini.Parses fragment) ∧
      (prepare ⟨1⟩).eval (duoHost.withPage true "1") = (.ok (), duoHost.withPage true "1") ∧
      ((execute ⟨1⟩ ⟨0⟩).eval (duoHost.withPage true "1")).1 =
        ((execute ⟨1⟩ ⟨0⟩).eval (duoHost.withPage false "1")).1 ∧
      Twins ((execute ⟨1⟩ ⟨0⟩).eval (duoHost.withPage true "1")).2
        ((execute ⟨1⟩ ⟨0⟩).eval (duoHost.withPage false "1")).2 ∧
      (((execute ⟨1⟩ ⟨0⟩).eval (duoHost.withPage true "1")).2.sinks.get ⟨0⟩).text = "1" := by
  have lacks : ∀ code ∈ duoHost.codesAhead (duoSetting.preparing false) (printing "1"),
      duoHost.Lacks (code.name (printing "1")) :=
    fun _ _ => duoHost_lacks _
  obtain ⟨-, succeeded, unfrozen, -, -, -, -, -, output⟩ := printing_runs
  obtain ⟨succeeds, -, onward⟩ := eager_agrees_with_lazy (duoHost_mini _) (printing "1")
  obtain ⟨checked, agrees⟩ := onward ⟨1⟩ _ (Prod.fst_eq_iff.1 succeeded)
  obtain ⟨-, _, lazyMade, runs⟩ := agrees lacks
  obtain rfl := congrArg Prod.snd lazyMade
  have makes : Proceeds (fun _ => False) _ (duoHost.withPage true "1") :=
    .newContext _ ⟨0⟩ ⟨1⟩ _
  have opens : Blind (newContext ⟨0⟩ ⟨1⟩ : HostM Empty ContextId) := .newContext ⟨0⟩ ⟨1⟩
  obtain ⟨-, run⟩ := runs _ _ (.single (.operate _ _ opens))
  obtain ⟨same, twins⟩ := run ⟨0⟩ none none nofun fun started begins => by
    cases begins with
    | frozen frozen => exact absurd (frozen.symm.trans unfrozen) nofun
    | bare => exact includesOwn_printing
    | opened _ given => cases given
  exact ⟨duoHost_mini _, lacks, (succeeds.1 ⟨_, _, Prod.fst_eq_iff.1 succeeded⟩).2,
    (checked _ _ makes).1, same, twins, output⟩

/-- The page has been compiled before with another text. -/
def duoReused : World :=
  ((newExecutable (duoSetting.preparing true) (printing "1")).eval duoHost).2

/-- Where a document stands under the name of the in-flow code, what was compiled without checks
runs its own code, and what was compiled with checks that of the document that stands there. -/
theorem eager_run_of_another_text :
    duoReused.MiniRegistry duoSetting.registry ∧
      ((newExecutable (duoSetting.preparing true) (printing "2")).eval duoReused).1 = .ok ⟨3⟩ ∧
      ((newExecutable (duoSetting.preparing false) (printing "2")).eval duoReused).1 = .ok ⟨3⟩ ∧
      duoReused.codesAhead (duoSetting.preparing false) (printing "2") = [⟨0, "b", "print 2"⟩] ∧
      ((duoReused.withPage true "2").executables.get ⟨3⟩).segments.map Segment.source? =
        [some ("include (\"" ++ inFlowDocumentName (printing "2") 0 ++ "\");", ⟨0⟩)] ∧
      (((execute ⟨3⟩ ⟨0⟩).eval (duoReused.withPage true "2")).2.sinks.get ⟨0⟩).text = "1" ∧
      (((execute ⟨3⟩ ⟨0⟩).eval (duoReused.withPage false "2")).2.sinks.get ⟨0⟩).text = "2" := by
  refine ⟨?_, by decide +kernel⟩
  have mini : duoReused.MiniOnly :=
    (Stays.newExecutable (duoSetting.preparing true) (printing "1") _ duoHost_miniOnly).mini
  exact mini.registries _

end Printing

end DocumentHost
