import DocumentHost.Host.Execute
import DocumentHost.Proofs.Host.Brackets
import DocumentHost.Proofs.Host.Evaluation

/-!
# From a name to a run

What compiling, obtaining and including a document come to when its parts are known: how
the document is taken apart, where it is found in the source, and what it is compiled to.
-/

namespace DocumentHost

/-- A document is taken apart along its first delimiters. -/
theorem eval_splitDocument {setting : Setting} {document : Document} {world : World}
    {tag : Option String} {fence : Fence} {pieces : List Piece}
    (initial : world.initialTag setting document = tag)
    (found : Fence.ofDocument? setting.options.delimiters document.text.toList = some fence)
    (cut : Piece.cut fence document.text.toList .start = pieces) :
    (splitDocument setting document).eval world =
      (segmentsOfPieces setting document (String.ofList fence.closing) tag 0 pieces).eval world := by
  rw [splitDocument, HostM.eval_bind_of_ok (HostM.eval_get _)]
  dsimp only
  rw [found]
  dsimp only
  rw [initial, cut]

/-- A document that is one literal is not treated apart: the passes leave it as it is. -/
theorem eval_scriptletSegments {origin behind : World} {setting : Setting}
    {document : Document} {raw : List RawSegment}
    (split : (splitDocument setting document).eval origin = (.ok raw, behind)) :
    (scriptletSegments setting document).eval origin =
      (compileSegments setting document true
        (RawSegment.normalize (behind.codeForLiteral setting) raw)).eval behind := by
  rw [scriptletSegments, HostM.eval_bind_of_ok split, HostM.eval_bind_of_ok (HostM.eval_get _)]
  dsimp only
  split
  · split <;> rfl
  · rfl

theorem eval_newExecutable_of_split {origin behind : World} {setting : Setting} {document : Document}
    {raw : List RawSegment} (parser : setting.options.parser = scriptletsParser)
    (split : (splitDocument setting document).eval origin = (.ok raw, behind)) :
    (newExecutable setting document).eval origin =
      (compileSegments setting document true
        (RawSegment.normalize (behind.codeForLiteral setting) raw) >>=
          makeExecutable setting document).eval behind := by
  simp only [newExecutable, parser]
  rw [if_neg (by decide), if_neg (by decide), if_pos trivial, HostM.eval_bind,
    eval_scriptletSegments split, ← HostM.eval_bind]

/-- The document of a descriptor. -/
def World.documentOf (world : World) (id : DescriptorId) : Document :=
  let descriptor := world.descriptors.get id
  { name := descriptor.name
    partition := descriptor.partition
    tag := if descriptor.tag = "" then none else some descriptor.tag
    text := descriptor.text
    timestamp := descriptor.timestamp }

theorem eval_obtainExecutable_of_missing {setting : Setting} {name : String}
    {world between : World} {error : DocumentError}
    (sourced : setting.sourced = true) (source : world.source.isNone = false)
    (failed : (fetchDocument name).eval world = (.error error, between)) :
    (obtainExecutable setting name).eval world = (.error (.document error), between) := by
  rw [obtainExecutable, HostM.eval_bind_of_ok (HostM.eval_get _)]
  rw [if_neg (by simp [sourced, source]),
    HostM.eval_bind_of_error (HostM.eval_convert_of_error failed)]

/-- An executable comes from documents that have a source. -/
theorem sourced_of_obtainExecutable {setting : Setting} {name : String} {world after : World}
    {executable : ExecutableId}
    (obtained : (obtainExecutable setting name).eval world = (.ok executable, after)) :
    setting.sourced = true ∧ world.source.isNone = false := by
  rw [obtainExecutable, HostM.eval_bind_of_ok (HostM.eval_get _)] at obtained
  split at obtained
  · cases obtained
  · rename_i hasSource
    rwa [Bool.not_eq_true, Bool.or_eq_false_iff, Bool.not_eq_false'] at hasSource

/-- A document that has been found is compiled unless its slot is filled; of two forms the
one stays that was there first. -/
theorem eval_obtainExecutable_of_fetched {setting : Setting} {name : String}
    {world between : World} {id : DescriptorId}
    (sourced : setting.sourced = true) (source : world.source.isNone = false)
    (fetched : (fetchDocument name).eval world = (.ok id, between)) :
    (obtainExecutable setting name).eval world =
      match (between.descriptors.get id).slots.get? setting.options.compileKey with
      | some present => (.ok present, between)
      | none =>
          match (newExecutable setting (between.documentOf id)).eval between with
          | (.ok executable, behind) =>
              (.ok (behind.fillSlot id setting.options.compileKey executable).1,
                (behind.fillSlot id setting.options.compileKey executable).2)
          | (.error error, behind) => (.error error, behind) := by
  rw [obtainExecutable, HostM.eval_bind_of_ok (HostM.eval_get _)]
  rw [if_neg (by simp [sourced, source]), HostM.eval_bind_of_ok (HostM.eval_convert_of_ok fetched),
    HostM.eval_bind_of_ok (HostM.eval_get _)]
  dsimp only
  cases (between.descriptors.get id).slots.get? setting.options.compileKey with
  | some present => rfl
  | none =>
      dsimp only [World.documentOf]
      rw [HostM.eval_bind]
      generalize (newExecutable setting _).eval between = made
      obtain ⟨error | executable, behind⟩ := made <;> rfl

theorem eval_obtainExecutable {setting : Setting} {name : String} {world between behind : World}
    {id : DescriptorId} {executable : ExecutableId}
    (sourced : setting.sourced = true) (source : world.source.isNone = false)
    (fetched : (fetchDocument name).eval world = (.ok id, between))
    (missing : (between.descriptors.get id).slots.get? setting.options.compileKey = none)
    (made : (newExecutable setting (between.documentOf id)).eval between = (.ok executable, behind))
    (vacant : (behind.descriptors.get id).slots.get? setting.options.compileKey = none) :
    (obtainExecutable setting name).eval world =
      (.ok executable, (behind.fillSlot id setting.options.compileKey executable).2) := by
  have first : (behind.fillSlot id setting.options.compileKey executable).1 = executable := by
    rw [World.fillSlot, vacant]
  rw [eval_obtainExecutable_of_fetched sourced source fetched, missing]
  dsimp only
  rw [made]
  dsimp only
  rw [first]

theorem eval_includeWithin {levels : Nat} {executable included : ExecutableId} {name : String}
    {context : ContextId} {world behind : World}
    (shallow : world.includeDepth < includeLimit)
    (sourced : (world.executables.get executable).setting.sourced = true)
    (source : world.source.isNone = false)
    (obtained : (obtainExecutable { (world.executables.get executable).setting with
      options := (world.executables.get executable).setting.options.forIncludes } name).eval
        { world with includeDepth := world.includeDepth + 1 } = (.ok included, behind)) :
    (includeWithin (levels + 1) executable name context).eval world =
      let (outcome, after) := (keeping { executables := [included] } do
        recordDependency (world.executables.get executable) name
        executeWith
          (fun executable context program =>
            runScript (serveRequest (includeWithin levels) executable context) program.run)
          included context none none).eval behind
      (outcome, { after with includeDepth := after.includeDepth - 1 }) := by
  have inside : (do
        let world ← get
        let document := world.executables.get executable
        if !document.setting.sourced || world.source.isNone then
          throw (.ofParsing (.needsSource name))
        let setting : Setting :=
          { document.setting with options := document.setting.options.forIncludes }
        let included ← (obtainExecutable setting name).convert ExecutionError.ofParsing
        keeping { executables := [included] } do
          recordDependency document name
          executeWith
            (fun executable context program =>
              runScript (serveRequest (includeWithin levels) executable context) program.run)
            included context none none : HostM ExecutionError Unit).eval
        { world with includeDepth := world.includeDepth + 1 } =
      (keeping { executables := [included] } do
        recordDependency (world.executables.get executable) name
        executeWith
          (fun executable context program =>
            runScript (serveRequest (includeWithin levels) executable context) program.run)
          included context none none).eval behind := by
    rw [HostM.eval_bind_of_ok (HostM.eval_get _)]
    dsimp only
    rw [if_neg (by simp [sourced, source]),
      HostM.eval_bind_of_ok (HostM.eval_convert_of_ok obtained)]
  rw [includeWithin, HostM.eval_asInclude, if_neg (by omega), inside]

end DocumentHost
