import DocumentHost.Proofs.Host.InFlow
import DocumentHost.Proofs.Host.SideBySide
import DocumentHost.Proofs.Running.MiniHosts

/-!
# Checking Mini programs

A text that is no Mini program is found out when it is run, or before that when it is checked,
and either way with one error.  Programs can be checked when they are compiled, and a document
is compiled in the same way whether they are or not, up to the first mistake that is found.
-/

namespace DocumentHost

open World

/-- A setting in which programs are checked when they are compiled, or are not. -/
def Setting.preparing (setting : Setting) (ahead : Bool) : Setting :=
  { setting with options := { setting.options with prepare := ahead } }

theorem Setting.delimiters_preparing (setting : Setting) (ahead : Bool) :
    (setting.preparing ahead).options.delimiters = setting.options.delimiters :=
  rfl

theorem Setting.markers_preparing (setting : Setting) (ahead : Bool) :
    (setting.preparing ahead).options.markers = setting.options.markers :=
  rfl

/-! ## Texts -/

namespace Mini

/-- What keeps a text from being run. -/
def mistake? (fragment : Fragment) : Option PreparationError :=
  match statementsOf fragment with
  | .ok _ => none
  | .error error => some error

/-- What keeps the first text from being run that is no program. -/
def firstMistake? (fragments : List Fragment) : Option PreparationError :=
  fragments.findSome? mistake?

/-- A text is a program. -/
def Parses (fragment : Fragment) : Prop :=
  ∃ statements, parse fragment.text = .ok statements

theorem mistake?_eq_none_iff {fragment : Fragment} :
    mistake? fragment = none ↔ Parses fragment := by
  rw [mistake?, statementsOf, Parses]
  cases parse fragment.text <;> simp [Except.mapError]

theorem statementsOf_of_mistake? {fragment : Fragment} {error : PreparationError}
    (mistake : mistake? fragment = some error) : statementsOf fragment = .error error := by
  rw [mistake?] at mistake
  cases parsed : statementsOf fragment with
  | ok statements =>
      rw [parsed] at mistake
      cases mistake
  | error found =>
      rw [parsed] at mistake
      rw [Option.some.inj mistake]

/-- A text that is no program fails with its mistake when it is run. -/
theorem run_programOf_of_mistake? {fragment : Fragment} {error : PreparationError}
    (mistake : mistake? fragment = some error) :
    (programOf fragment).run = .fail (.ofPreparation error) := by
  rw [programOf, statementsOf_of_mistake? mistake]

theorem prepare_programOf (fragment : Fragment) :
    (programOf fragment).prepare = ⟨[], (mistake? fragment).elim (.ok ()) .error⟩ := by
  rw [programOf, mistake?]
  cases statementsOf fragment <;> rfl

theorem firstMistake?_eq_none_iff {fragments : List Fragment} :
    firstMistake? fragments = none ↔ ∀ fragment ∈ fragments, Parses fragment := by
  simp only [firstMistake?, List.findSome?_eq_none_iff, mistake?_eq_none_iff]

theorem firstMistake?_append (front rest : List Fragment) :
    firstMistake? (front ++ rest) = (firstMistake? front).or (firstMistake? rest) :=
  List.findSome?_append

/-- Of texts in their order, the first that is no program fails with an error when it is run. -/
def FailsFirst (fragments : List Fragment) (error : PreparationError) : Prop :=
  ∃ front fragment rest, fragments = front ++ fragment :: rest ∧
    (∀ earlier ∈ front, Parses earlier) ∧ ¬Parses fragment ∧
    (programOf fragment).run = .fail (.ofPreparation error)

theorem FailsFirst.of_firstMistake? {fragments : List Fragment} {error : PreparationError}
    (mistake : firstMistake? fragments = some error) : FailsFirst fragments error := by
  obtain ⟨front, fragment, rest, rfl, found, earlier⟩ := List.findSome?_eq_some_iff.1 mistake
  refine ⟨front, fragment, rest, rfl, fun other member => ?_, fun parses => ?_,
    run_programOf_of_mistake? found⟩
  · exact mistake?_eq_none_iff.1 (earlier other member)
  · rw [mistake?_eq_none_iff.2 parses] at found
    cases found

end Mini

open Mini (Parses FailsFirst firstMistake?)

/-- The text of a segment of a document, if it is a program. -/
def Segment.fragment? (documentName : String) : Segment → Option Fragment
  | .literal _ _ => none
  | .program text _ position _ _ => some ⟨text, ⟨documentName, position⟩, true⟩

/-- The texts of the programs of a document. -/
def Executable.texts (executable : Executable) : List Fragment :=
  executable.segments.filterMap (Segment.fragment? executable.documentName)

/-- In-flow code as it is compiled. -/
def InFlowCode.fragment (document : Document) (code : InFlowCode) : Fragment :=
  ⟨code.text, (code.within document).place .start, false⟩

/-- The in-flow codes that the compilation of a document puts into the source. -/
def World.codesAhead (world : World) (setting : Setting) (document : Document) :
    List InFlowCode :=
  if setting.options.parser = scriptletsParser then world.inFlowCodes setting document else []

/-! ## Checking Mini programs -/

/-- A segment of a document is what its text has been compiled to. -/
def Segment.OfText (documentName : String) : Segment → Prop
  | .literal _ _ => True
  | .program text _ position _ made =>
      ∃ isScriptlet, made = Mini.programOf ⟨text, ⟨documentName, position⟩, isScriptlet⟩

theorem World.WrittenInMini.ofText {world : World} {documentName : String}
    {segments : List Segment} (written : world.WrittenInMini documentName segments) :
    ∀ segment ∈ segments, segment.OfText documentName := by
  intro segment member
  cases segment with
  | literal => trivial
  | program text tag position adapter program =>
      exact (written text tag position adapter program member).2

/-- The programs of a Mini document are checked in their order, up to the first mistake. -/
theorem eval_prepareSegments {documentName : String} {segments : List Segment}
    (written : ∀ segment ∈ segments, segment.OfText documentName) (state : World) :
    (prepareSegments segments).eval state =
      ((firstMistake? (segments.filterMap (Segment.fragment? documentName))).elim (.ok ()) .error,
        state) := by
  induction segments with
  | nil => rfl
  | cons segment rest ih =>
      obtain ⟨here, behind⟩ := List.forall_mem_cons.1 written
      have rest := ih behind
      cases segment with
      | literal text position => exact rest
      | program text tag position adapter program =>
          obtain ⟨isScriptlet, rfl⟩ := here
          have checked : (HostM.ofReported
              (Mini.programOf ⟨text, ⟨documentName, position⟩, isScriptlet⟩).prepare).eval state =
              ((Mini.mistake? ⟨text, ⟨documentName, position⟩, true⟩).elim (.ok ()) .error,
                state) := by
            rw [HostM.eval_ofReported, Mini.prepare_programOf, noteAll_nil]
            rfl
          rw [prepareSegments, HostM.eval_bind, checked,
            List.filterMap_cons_some (f := Segment.fragment? documentName) rfl, firstMistake?,
            List.findSome?_cons]
          cases Mini.mistake? ⟨text, ⟨documentName, position⟩, true⟩ with
          | none => exact rest
          | some error => rfl

/-- An executable with programs that have been compiled from texts, all of which are programs. -/
structure Executable.Sound (executable : Executable) : Prop where
  written : ∀ segment ∈ executable.segments, segment.OfText executable.documentName
  parses : ∀ fragment ∈ executable.texts, Parses fragment

namespace Executable.Sound

variable {executable other : Executable}

theorem of_same (sound : executable.Sound) (segments : other.segments = executable.segments)
    (documentName : other.documentName = executable.documentName) : other.Sound := by
  refine ⟨?_, ?_⟩
  · rw [segments, documentName]
    exact sound.written
  · rw [Executable.texts, segments, documentName]
    exact sound.parses

/-- However often it is checked, nothing comes of it. -/
theorem eval_prepare {id : ExecutableId} {world : World}
    (sound : (world.executables.get id).Sound) :
    (prepare id).eval world = (.ok (), world) := by
  rw [prepare, HostM.eval_bind_of_ok (HostM.eval_get _), eval_prepareSegments sound.written,
    ← Executable.texts, Mini.firstMistake?_eq_none_iff.2 sound.parses]
  rfl

end Executable.Sound

/-! ## Compiling Mini texts -/

theorem ofText_of_compileSegments {setting : Setting} {document : Document} {isScriptlet : Bool}
    {raw : List RawSegment} {segments : List Segment} {world after : World}
    (mini : world.MiniRegistry setting.registry)
    (compiled : (compileSegments setting document isScriptlet raw).eval world =
      (.ok segments, after)) : ∀ segment ∈ segments, segment.OfText document.name := by
  rw [eval_compileSegments mini] at compiled
  exact (writtenInMini_of_mapM mini (congrArg Prod.fst compiled)).ofText

/-- Whatever parser the options name, a document comes to the segments that texts of it are
compiled to. -/
theorem ofText_of_documentSegments {setting : Setting} {document : Document}
    {segments : List Segment} {world after : World} (mini : world.MiniRegistry setting.registry)
    (compiled : (documentSegments setting document).eval world = (.ok segments, after)) :
    ∀ segment ∈ segments, segment.OfText document.name := by
  unfold documentSegments at compiled
  split at compiled
  · rw [programSegments, HostM.eval_bind_of_ok (HostM.eval_get _)] at compiled
    exact ofText_of_compileSegments mini compiled
  split at compiled
  · exact ofText_of_compileSegments mini compiled
  split at compiled
  · obtain ⟨raw, between, split, compiles⟩ := HostM.eval_bind_eq_ok_iff.1 compiled
    rw [HostM.eval_bind_of_ok (HostM.eval_get _)] at compiles
    have adapters : SameAdapters world between :=
      (SameAdapters.tolerant.splitDocument
        (fun _ => SameAdapters.heedless.plantInFlow document _) setting).leads split
    exact ofText_of_compileSegments (adapters.miniRegistry mini) compiles
  · cases compiled

/-- The state in which an executable has been made. -/
def World.withExecutable (world : World) (setting : Setting) (document : Document)
    (segments : List Segment) : ExecutableId × World :=
  let (id, executables) := world.executables.add
    { documentName := document.name
      partition := document.partition
      timestamp := document.timestamp
      setting
      segments
      lastUsed := world.clock }
  (id, { world.tick with executables })

/-- If programs are checked, an executable is made unless there is a mistake. -/
theorem eval_makeExecutable_preparing {document : Document} {segments : List Segment}
    (written : ∀ segment ∈ segments, segment.OfText document.name) (setting : Setting)
    (ahead : Bool) (world : World) :
    (makeExecutable (setting.preparing ahead) document segments).eval world =
      match if ahead then firstMistake? (segments.filterMap (Segment.fragment? document.name))
        else none with
      | none => (.ok (world.withExecutable (setting.preparing ahead) document segments).1,
          (world.withExecutable (setting.preparing ahead) document segments).2)
      | some error => (.error (.preparation error), world.tick) := by
  have checked := eval_prepareSegments written world.tick
  rw [makeExecutable, HostM.eval_bind_of_ok (HostM.eval_readClock _)]
  cases ahead with
  | false => rfl
  | true =>
      dsimp only
      rw [if_pos (show (setting.preparing true).options.prepare = true from rfl), if_pos rfl,
        HostM.eval_bind, HostM.eval_convert, checked]
      cases firstMistake? (segments.filterMap (Segment.fragment? document.name)) <;> rfl

/-- In-flow code is compiled to one program. -/
theorem eval_programSegments_inFlow {setting : Setting} {world : World}
    (mini : world.MiniRegistry setting.registry) (tag : String) (document : Document) :
    (programSegments (setting.forInFlow tag) document).eval world =
      ((world.adapterForTag setting.registry tag).elim
        (.error (.noAdapter (document.place .start) tag)) fun id =>
          .ok [.program document.text tag .start id
            (Mini.programOf ⟨document.text, document.place .start, false⟩)], world) := by
  have miniInFlow : world.MiniRegistry (setting.forInFlow tag).registry := mini
  have compiled := World.eval_compileSegments miniInFlow document false
    [.program document.text (some tag) .start]
  have segment : world.miniSegment (setting.forInFlow tag) document false
      (.program document.text (some tag) .start) =
      (world.adapterForTag setting.registry tag).elim
        (.error (.noAdapter (document.place .start) tag)) fun id =>
          .ok (.program document.text tag .start id
            (Mini.programOf ⟨document.text, document.place .start, false⟩)) := by
    have asked : world.adapterForTag (setting.forInFlow tag).registry tag =
        world.adapterForTag setting.registry tag := rfl
    simp only [World.miniSegment, RawSegment.program, asked]
    cases world.adapterForTag setting.registry tag <;> rfl
  rw [List.mapM_cons, List.mapM_nil, segment] at compiled
  rw [programSegments, HostM.eval_bind_of_ok (HostM.eval_get _)]
  refine compiled.trans ?_
  cases world.adapterForTag setting.registry tag <;> rfl

/-- What in-flow code is compiled to. -/
def InFlowCode.segments (document : Document) (code : InFlowCode) (adapter : AdapterId) :
    List Segment :=
  [.program code.text code.language .start adapter (Mini.programOf (code.fragment document))]

/-- In-flow code gets into the source, if its language is known and it is no mistake that would
have been noticed. -/
theorem eval_seedInFlow {setting : Setting} {world : World}
    (mini : world.MiniRegistry setting.registry) (ahead : Bool) (document : Document)
    (code : InFlowCode) :
    (seedInFlow (setting.preparing ahead) document (code.name document) code.text
      code.language).eval world =
      match world.adapterForTag setting.registry code.language with
      | none => (.error (.noAdapter ((code.within document).place .start) code.language), world)
      | some adapter =>
          match if ahead then firstMistake? [code.fragment document] else none with
          | none =>
              let (executable, made) := world.withExecutable
                ((setting.preparing ahead).forInFlow code.language) (code.within document)
                (code.segments document adapter)
              (plantInFlow document (code.name document) code.text code.language
                ((setting.preparing ahead).options.forIncludes.compileKey, executable)).eval made
          | some error => (.error (.preparation error), world.tick) := by
  have compiled : (programSegments ((setting.preparing ahead).forInFlow code.language)
      (code.within document)).eval world =
        ((world.adapterForTag setting.registry code.language).elim
          (.error (.noAdapter ((code.within document).place .start) code.language)) fun adapter =>
            .ok (code.segments document adapter), world) :=
    eval_programSegments_inFlow
      (show world.MiniRegistry (setting.preparing ahead).registry from mini) code.language
      (code.within document)
  have written (adapter : AdapterId) :
      ∀ segment ∈ code.segments document adapter,
        segment.OfText (code.within document).name := by
    rw [InFlowCode.segments, List.forall_mem_singleton]
    exact ⟨false, rfl⟩
  have seeds : seedInFlow (setting.preparing ahead) document (code.name document) code.text
      code.language = (do
        let segments ← programSegments ((setting.preparing ahead).forInFlow code.language)
          (code.within document)
        let executable ← makeExecutable ((setting.preparing ahead).forInFlow code.language)
          (code.within document) segments
        plantInFlow document (code.name document) code.text code.language
          ((setting.preparing ahead).options.forIncludes.compileKey, executable)) :=
    rfl
  rw [seeds]
  cases found : world.adapterForTag setting.registry code.language with
  | none =>
      rw [found] at compiled
      exact HostM.eval_bind_of_error compiled
  | some adapter =>
      rw [found] at compiled
      have made : (makeExecutable ((setting.preparing ahead).forInFlow code.language)
          (code.within document) (code.segments document adapter)).eval world =
            match if ahead then firstMistake? [code.fragment document] else none with
            | none => (.ok (world.withExecutable ((setting.preparing ahead).forInFlow code.language)
                  (code.within document) (code.segments document adapter)).1,
                (world.withExecutable ((setting.preparing ahead).forInFlow code.language)
                  (code.within document) (code.segments document adapter)).2)
            | some error => (.error (.preparation error), world.tick) :=
        eval_makeExecutable_preparing (written adapter) (setting.forInFlow code.language) ahead world
      refine (HostM.eval_bind_of_ok compiled).trans ?_
      dsimp only
      cases mistake : (if ahead then firstMistake? [code.fragment document] else none) with
      | none =>
          rw [mistake] at made
          exact HostM.eval_bind_of_ok made
      | some error =>
          rw [mistake] at made
          exact HostM.eval_bind_of_error made

/-- In-flow code that gets into the source has an adapter, and what it is compiled to is planted. -/
theorem eval_seedInFlow_of_ok {setting : Setting} {world : World}
    (mini : world.MiniRegistry setting.registry) {ahead : Bool} {document : Document}
    (code : InFlowCode)
    (seeds : ((seedInFlow (setting.preparing ahead) document (code.name document) code.text
      code.language).eval world).1 = .ok ()) :
    ∃ adapter, world.adapterForTag setting.registry code.language = some adapter ∧
      (seedInFlow (setting.preparing ahead) document (code.name document) code.text
        code.language).eval world =
          let (executable, made) := world.withExecutable
            ((setting.preparing ahead).forInFlow code.language) (code.within document)
            (code.segments document adapter)
          (plantInFlow document (code.name document) code.text code.language
            ((setting.preparing ahead).options.forIncludes.compileKey, executable)).eval made := by
  rw [eval_seedInFlow mini] at seeds ⊢
  cases found : world.adapterForTag setting.registry code.language with
  | none =>
      rw [found] at seeds
      cases seeds
  | some adapter =>
      refine ⟨adapter, rfl, ?_⟩
      rw [found] at seeds
      cases mistake : (if ahead then firstMistake? [code.fragment document] else none) with
      | some error =>
          rw [mistake] at seeds
          cases seeds
      | none => rfl

/-- What a program text in in-flow code has been compiled to is sound. -/
theorem InFlowCode.Made.sound {code : InFlowCode} {setting : Setting} {document : Document}
    {world after : World} {executable : ExecutableId}
    (made : code.Made setting document world after executable)
    (mini : world.MiniRegistry setting.registry) (parses : Parses (code.fragment document)) :
    (after.executables.get executable).Sound := by
  obtain ⟨segments, ⟨adapter, declares, program, compiled, rfl⟩, form⟩ := made
  obtain ⟨profile, isMini⟩ := mini adapter (mem_declaring declares).1
  rw [isMini] at compiled
  obtain rfl := Except.ok.inj compiled
  refine ⟨?_, ?_⟩
  · rw [form.segments, form.documentName, List.forall_mem_singleton]
    exact ⟨false, rfl⟩
  · rw [Executable.texts, form.segments, form.documentName,
      List.filterMap_cons_some (f := Segment.fragment? _) rfl, List.filterMap_nil,
      List.forall_mem_singleton]
    exact parses

end DocumentHost
