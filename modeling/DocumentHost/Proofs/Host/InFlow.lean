import DocumentHost.Language.Echo
import DocumentHost.Mini.Language
import DocumentHost.Proofs.Descriptor.OnePerName
import DocumentHost.Proofs.Host.Obtaining
import DocumentHost.Proofs.Host.Planting

/-!
# In-flow code is run as it was compiled

In-flow code in another language is compiled ahead of the document that it stands in, and run by
an include when its document is run.  The key under which it is put into the source is the one
that the include looks up, whatever the options are; so for as long as its descriptor is valid,
the include runs what the code was compiled to, in its own language, and compiles nothing.
-/

namespace DocumentHost

open World

/-! ## The in-flow codes of a document -/

/-- In-flow code in a language other than the one in effect. -/
structure InFlowCode where
  /-- The number of segments before it. -/
  number : Nat
  language : String
  text : String
deriving DecidableEq, Repr

/-- The name under which the code is put into the source. -/
def InFlowCode.name (code : InFlowCode) (document : Document) : String :=
  inFlowDocumentName document code.number

/-- The code as a document of its own. -/
def InFlowCode.within (code : InFlowCode) (document : Document) : Document :=
  document.inFlow (code.name document) code.text

/-- The in-flow code of a scriptlet, if it has a language other than the one in effect. -/
def inFlowCode? (markers : Markers) (activeTag : Option String) (number : Nat)
    (body : List Char) : Option InFlowCode :=
  let (treatment, marked) := treatmentOf body markers.treatments
  let (explicit, text) := leadingTag marked
  match (explicit.map String.ofList).or activeTag with
  | none => none
  | some language =>
      if treatment = .inFlow ∧ activeTag ≠ some language then
        some ⟨number, language, String.ofList text⟩
      else none

/-- The in-flow codes of pieces, as the tag in effect and the number of segments go on from one
piece to the next. -/
def inFlowCodesOfPieces (setting : Setting) (document : Document) :
    Option String → Nat → List Piece → World → List InFlowCode
  | tag, number, .literal _ _ :: rest, world =>
      inFlowCodesOfPieces setting document tag (number + 1) rest world
  | tag, number, .scriptlet body position :: rest, world =>
      (inFlowCode? setting.options.markers tag number body).toList ++
        match (scriptletSegment setting document tag number body position).eval world with
        | (.ok (segment, nextTag), between) =>
            inFlowCodesOfPieces setting document nextTag (number + segment.toList.length) rest
              between
        | (.error _, _) => []
  | _, _, _, _ => []

/-- The in-flow codes of a document. -/
def World.inFlowCodes (world : World) (setting : Setting) (document : Document) :
    List InFlowCode :=
  match Fence.ofDocument? setting.options.delimiters document.text.toList with
  | none => []
  | some fence =>
      inFlowCodesOfPieces setting document (world.initialTag setting document) 0
        (Piece.cut fence document.text.toList .start) world

section Codes

variable {setting : Setting} {document : Document} {tag nextTag : Option String} {number : Nat}
  {body : List Char} {position : Position} {world behind : World} {code : InFlowCode}
  {segment : Option RawSegment}

/-- The segment of in-flow code includes what is seeded. -/
theorem seedInFlow_of_inFlowSegment {text language : String} {raw : RawSegment}
    (done : (inFlowSegment setting document tag number text language position).eval world =
      (.ok raw, behind)) :
    setting.sourced = true ∧
      (seedInFlow setting document (inFlowDocumentName document number) text language).eval world =
        (.ok (), behind) := by
  unfold inFlowSegment at done
  rw [HostM.eval_bind_of_ok (HostM.eval_get _)] at done
  dsimp only at done
  rw [HostM.eval_ite] at done
  split at done
  · cases done
  rename_i available
  simp only [Bool.or_eq_true, Bool.not_eq_true', not_or, Bool.not_eq_false] at available
  refine ⟨available.1, ?_⟩
  cases tag with
  | none => cases done
  | some active =>
      dsimp only at done
      obtain ⟨_, _, required, further⟩ := HostM.eval_bind_eq_ok_iff.1 done
      obtain ⟨-, rfl⟩ := eval_requireAdapter_eq_ok_iff.1 required
      obtain ⟨_, between, seeds, coded⟩ := HostM.eval_bind_eq_ok_iff.1 further
      rw [codeForInclude, HostM.eval_bind, HostM.eval_bind_of_ok (HostM.eval_get _),
        HostM.eval_ofExcept] at coded
      split at coded
      · rename_i state same
        obtain ⟨-, rfl⟩ := Prod.mk.inj same
        cases coded
        exact seeds
      · cases coded

/-- A scriptlet that is in-flow code in another language is seeded, and nothing else is done. -/
theorem seedInFlow_of_scriptletSegment
    (isCode : inFlowCode? setting.options.markers tag number body = some code)
    (treated : (scriptletSegment setting document tag number body position).eval world =
      (.ok (segment, nextTag), behind)) :
    setting.sourced = true ∧ segment.isSome = true ∧
      (seedInFlow setting document (code.name document) code.text code.language).eval world =
        (.ok (), behind) := by
  rw [inFlowCode?] at isCode
  rw [scriptletSegment] at treated
  dsimp only at isCode treated
  split at isCode
  · cases isCode
  rename_i language chosen
  split at isCode
  · rename_i inFlow
    obtain ⟨isInFlow, differs⟩ := inFlow
    cases isCode
    rw [isInFlow, chosen, if_neg (by decide)] at treated
    dsimp only at treated
    obtain ⟨_, _, required, further⟩ := HostM.eval_bind_eq_ok_iff.1 treated
    obtain ⟨-, rfl⟩ := eval_requireAdapter_eq_ok_iff.1 required
    rw [HostM.eval_bind_of_ok (HostM.eval_get _), if_neg differs] at further
    obtain ⟨_, _, done, ends⟩ := HostM.eval_bind_eq_ok_iff.1 further
    cases ends
    obtain ⟨sourced, seeds⟩ := seedInFlow_of_inFlowSegment done
    exact ⟨sourced, rfl, seeds⟩
  · cases isCode

/-- Only comments have no segment, and nothing is done for them. -/
theorem eq_of_scriptletSegment_none
    (treated : (scriptletSegment setting document tag number body position).eval world =
      (.ok (none, nextTag), behind)) : behind = world := by
  rw [scriptletSegment] at treated
  dsimp only at treated
  split at treated
  · cases treated
    rfl
  split at treated
  · cases treated
  obtain ⟨_, _, -, further⟩ := HostM.eval_bind_eq_ok_iff.1 treated
  rw [HostM.eval_bind_of_ok (HostM.eval_get _)] at further
  split at further
  · obtain ⟨_, _, -, ends⟩ := HostM.eval_bind_eq_ok_iff.1 further
    cases ends
  · obtain ⟨_, _, -, ends⟩ := HostM.eval_bind_eq_ok_iff.1 further
    cases ends
  · split at further
    · cases further
    · obtain ⟨_, _, -, ends⟩ := HostM.eval_bind_eq_ok_iff.1 further
      cases ends
  · cases further

theorem number_of_inFlowCode?
    (isCode : inFlowCode? setting.options.markers tag number body = some code) :
    code.number = number := by
  rw [inFlowCode?] at isCode
  dsimp only at isCode
  split at isCode
  · cases isCode
  split at isCode
  · cases isCode
    rfl
  · cases isCode

/-- The numbers of the codes go up.  By induction on the pieces. -/
theorem pairwise_inFlowCodesOfPieces (pieces : List Piece) (tag : Option String) (number : Nat)
    (world : World) :
    (∀ code ∈ inFlowCodesOfPieces setting document tag number pieces world,
        number ≤ code.number) ∧
      (inFlowCodesOfPieces setting document tag number pieces world).Pairwise
        fun first second => first.number < second.number := by
  induction pieces generalizing tag number world with
  | nil => exact ⟨nofun, .nil⟩
  | cons piece rest ih =>
      cases piece with
      | literal text position =>
          obtain ⟨above, pairwise⟩ := ih tag (number + 1) world
          exact ⟨fun code member => Nat.le_of_succ_le (above code member), pairwise⟩
      | unclosed position => exact ⟨nofun, .nil⟩
      | scriptlet body position =>
          rw [inFlowCodesOfPieces]
          rcases treated : (scriptletSegment setting document tag number body position).eval
            world with ⟨error | ⟨segment, nextTag⟩, between⟩
          · cases isCode : inFlowCode? setting.options.markers tag number body with
            | none => exact ⟨nofun, .nil⟩
            | some code =>
                have numbered := number_of_inFlowCode? isCode
                refine ⟨fun other member => ?_, List.pairwise_singleton ..⟩
                rw [List.append_nil, Option.toList_some, List.mem_singleton] at member
                rw [member, numbered]
          · obtain ⟨above, pairwise⟩ := ih nextTag (number + segment.toList.length) between
            have within (code : InFlowCode) (member : code ∈ inFlowCodesOfPieces setting document
                nextTag (number + segment.toList.length) rest between) : number ≤ code.number :=
              Nat.le_trans (Nat.le_add_right ..) (above code member)
            cases isCode : inFlowCode? setting.options.markers tag number body with
            | none => exact ⟨within, pairwise⟩
            | some code =>
                have numbered := number_of_inFlowCode? isCode
                obtain ⟨-, isSegment, -⟩ := seedInFlow_of_scriptletSegment isCode treated
                obtain ⟨raw, rfl⟩ := Option.isSome_iff_exists.1 isSegment
                refine ⟨fun other member => ?_,
                  List.pairwise_cons.2 ⟨fun other member => ?_, pairwise⟩⟩
                · rcases List.mem_cons.1 member with rfl | inRest
                  · rw [numbered]
                  · exact within other inRest
                · rw [numbered]
                  exact above other member

/-- No two codes of a document have one name. -/
theorem World.nodup_inFlowCodes (world : World) (setting : Setting) (document : Document) :
    ((world.inFlowCodes setting document).map fun code => code.name document).Nodup := by
  have pairwise : (world.inFlowCodes setting document).Pairwise
      fun first second => first.number < second.number := by
    unfold World.inFlowCodes
    split
    · exact .nil
    · exact (pairwise_inFlowCodesOfPieces _ _ _ _).2
  exact List.pairwise_map.2 (pairwise.imp fun less same =>
    Nat.ne_of_lt less (inFlowDocumentName_injective document same))

end Codes

/-! ## What becomes of them -/

/-- In-flow code has been compiled as one program in its own language. -/
def InFlowCode.Made (code : InFlowCode) (setting : Setting) (document : Document)
    (world after : World) (executable : ExecutableId) : Prop :=
  ∃ segments, world.OneProgram setting code.language (code.within document) segments ∧
    after.Form executable (setting.forInFlow code.language) (code.within document) segments

/-- In-flow code that has been compiled and put into the source between two states. -/
structure InFlowCode.Planted (code : InFlowCode) (setting : Setting) (document : Document)
    (world after : World) (id : DescriptorId) (executable : ExecutableId) : Prop where
  isNew : ¬id.index < world.descriptors.size
  seeded : after.Seeded (code.name document) code.text code.language
    setting.options.forIncludes.compileKey executable id
  form : code.Made setting document world after executable

namespace InFlowCode.Planted

variable {code : InFlowCode} {setting : Setting} {document : Document}
  {world between after further : World} {id : DescriptorId} {executable : ExecutableId}

theorem later (planted : code.Planted setting document world after id executable)
    (grows : Grows after further) (programs : SamePrograms after further) :
    code.Planted setting document world further id executable := by
  obtain ⟨segments, one, form⟩ := planted.form
  exact ⟨planted.isNew, planted.seeded.grow grows, segments, one, form.later programs⟩

theorem earlier (planted : code.Planted setting document between after id executable)
    (grows : Grows world between) (adapters : SameAdapters world between) :
    code.Planted setting document world after id executable := by
  obtain ⟨segments, one, form⟩ := planted.form
  exact ⟨fun known => planted.isNew (Nat.lt_of_lt_of_le known grows.size), planted.seeded,
    segments, one.of_sameAdapters adapters, form⟩

end InFlowCode.Planted

section Planting

variable {setting : Setting} {document : Document} {world after : World}

/-- A source that lacks a name of a later number lacks it behind a scriptlet. -/
theorem lacks_of_scriptletSegment {tag nextTag : Option String} {number other : Nat}
    {body : List Char} {position : Position} {segment : Option RawSegment}
    (treated : (scriptletSegment setting document tag number body position).eval world =
      (.ok (segment, nextTag), after))
    (above : number + segment.toList.length ≤ other)
    (lacks : world.Lacks (inFlowDocumentName document other)) :
    after.Lacks (inFlowDocumentName document other) := by
  cases segment with
  | none =>
      rw [eq_of_scriptletSegment_none treated]
      exact lacks
  | some raw =>
      have differs : inFlowDocumentName document other ≠ inFlowDocumentName document number :=
        fun same => Nat.ne_of_gt above (inFlowDocumentName_injective document same)
      have keeps := Dwindling.tolerant.scriptletSegment
        (fun code tag form => Dwindling.plantInFlow document code tag form differs) setting tag body
        position
      exact (keeps.leads treated).lacks lacks

/-- A scriptlet is treated before the pieces behind it. -/
theorem exists_of_segmentsOfPieces_scriptlet {closing : String} {tag : Option String}
    {number : Nat} {body : List Char} {position : Position} {rest : List Piece}
    {raw : List RawSegment}
    (split : (segmentsOfPieces setting document closing tag number
      (.scriptlet body position :: rest)).eval world = (.ok raw, after)) :
    ∃ segment nextTag between others,
      (scriptletSegment setting document tag number body position).eval world =
        (.ok (segment, nextTag), between) ∧
      (segmentsOfPieces setting document closing nextTag (number + segment.toList.length)
        rest).eval between = (.ok others, after) := by
  obtain ⟨⟨segment, nextTag⟩, between, treated, further⟩ := HostM.eval_bind_eq_ok_iff.1 split
  cases segment with
  | none => exact ⟨_, nextTag, between, raw, treated, further⟩
  | some first =>
      obtain ⟨others, _, ends, isRaw⟩ := HostM.eval_bind_eq_ok_iff.1 further
      cases isRaw
      exact ⟨_, nextTag, between, others, treated, ends⟩

/-- By induction on the pieces: what is planted for one piece stays when those behind it are
treated, and theirs are other names, which the source still lacks. -/
theorem planted_of_segmentsOfPieces {closing : String} {pieces : List Piece}
    {tag : Option String} {number : Nat} {raw : List RawSegment}
    (split : (segmentsOfPieces setting document closing tag number pieces).eval world =
      (.ok raw, after))
    (lacks : ∀ code ∈ inFlowCodesOfPieces setting document tag number pieces world,
      world.Lacks (code.name document)) :
    ∀ code ∈ inFlowCodesOfPieces setting document tag number pieces world,
      setting.sourced = true ∧
        ∃ id executable, code.Planted setting document world after id executable := by
  induction pieces generalizing tag number raw world with
  | nil => exact nofun
  | cons piece rest ih =>
      cases piece with
      | literal text position =>
          obtain ⟨others, between, ends, others⟩ := HostM.eval_bind_eq_ok_iff.1 split
          cases others
          exact ih ends lacks
      | unclosed position => cases split
      | scriptlet body position =>
          obtain ⟨segment, nextTag, between, others, treated, ends⟩ :=
            exists_of_segmentsOfPieces_scriptlet split
          rw [inFlowCodesOfPieces, treated] at lacks ⊢
          intro code member
          rcases List.mem_append.1 member with here | behind
          · have isCode := Option.mem_toList.1 here
            obtain ⟨sourced, -, seeds⟩ := seedInFlow_of_scriptletSegment isCode treated
            obtain ⟨id, executable, segments, isNew, one, seeded, form⟩ :=
              (lacks code member).seedInFlow seeds
            have planted : code.Planted setting document world between id executable :=
              ⟨isNew, seeded, segments, one, form⟩
            have grows := (Grows.tolerant.segmentsOfPieces
              (fun _ => Grows.plantInFlow document _) setting closing _ _ _).leads ends
            have programs := (SamePrograms.tolerant.segmentsOfPieces
              (fun _ => SamePrograms.heedless.plantInFlow document _)
              setting closing _ _ _).leads ends
            exact ⟨sourced, id, executable, planted.later grows programs⟩
          · have above := (@pairwise_inFlowCodesOfPieces setting document rest nextTag
              (number + segment.toList.length) between).1
            obtain ⟨sourced, id, executable, planted⟩ := ih ends (fun other isBehind =>
              lacks_of_scriptletSegment treated (above other isBehind)
                (lacks other (List.mem_append_right _ isBehind))) code behind
            have grows := (Grows.tolerant.scriptletSegment
              (Grows.plantInFlow document _) setting _ _ _).leads treated
            have adapters := (SameAdapters.tolerant.scriptletSegment
              (SameAdapters.heedless.plantInFlow document _) setting _ _ _).leads treated
            exact ⟨sourced, id, executable, planted.earlier grows adapters⟩

/-- Whatever a document with scriptlets is compiled to, its in-flow codes are planted first. -/
theorem planted_of_newExecutable {executable : ExecutableId}
    (parser : setting.options.parser = scriptletsParser)
    (lacks : ∀ code ∈ world.inFlowCodes setting document, world.Lacks (code.name document))
    (made : (newExecutable setting document).eval world = (.ok executable, after)) :
    (∃ segments, after.Form executable setting document segments) ∧
      ∀ code ∈ world.inFlowCodes setting document, setting.sourced = true ∧
        ∃ id inFlow, code.Planted setting document world after id inFlow := by
  simp only [newExecutable, parser] at made
  rw [if_neg (by decide), if_neg (by decide), if_pos trivial] at made
  obtain ⟨segments, compiled, done, makes⟩ := HostM.eval_bind_eq_ok_iff.1 made
  refine ⟨⟨segments, .of_makeExecutable makes⟩, fun code member => ?_⟩
  obtain ⟨raw, split, splits, merged⟩ := HostM.eval_bind_eq_ok_iff.1 done
  rw [HostM.eval_bind_of_ok (HostM.eval_get _)] at merged
  have keeps {Related : World → World → Prop} (tolerant : Tolerant Related) :
      Related split after :=
    tolerant.lasting.trans ((tolerant.compileSegments _ _ _ _).leads merged)
      ((tolerant.makeExecutable _ _ _).leads makes)
  rw [World.inFlowCodes] at lacks member
  rw [splitDocument, HostM.eval_bind_of_ok (HostM.eval_get _)] at splits
  dsimp only at splits
  cases found : Fence.ofDocument? setting.options.delimiters document.text.toList with
  | none =>
      rw [found] at member
      cases member
  | some fence =>
      rw [found] at lacks member splits
      obtain ⟨sourced, id, inFlow, planted⟩ :=
        planted_of_segmentsOfPieces splits lacks code member
      exact ⟨sourced, id, inFlow,
        planted.later (keeps Grows.tolerant) (keeps SamePrograms.tolerant)⟩

end Planting

/-! ## Including what has been planted -/

/-- What an include does for a document with the executable that it has found. -/
def runObtained (levels : Nat) (document : Executable) (name : String) (included : ExecutableId)
    (context : ContextId) : HostM ExecutionError Unit :=
  keeping { executables := [included] } do
    recordDependency document name
    executeWith
      (fun executable context program =>
        runScript (serveRequest (includeWithin levels) executable context) program.run)
      included context none none

/-- A descriptor that is not marked is the one that the source keeps under its name. -/
theorem World.Seeded.kept {world : World} {name text tag key : String} {executable : ExecutableId}
    {id : DescriptorId} (seeded : world.Seeded name text tag key executable id)
    (tended : Tended [] world) (unmarked : (world.descriptors.get id).invalidated = false) :
    world.kept? name = some id := by
  have kept := (tended.kept id seeded.known unmarked).resolve_right List.not_mem_nil
  rwa [seeded.name] at kept

/-- What has been seeded is found under its name and key, and nothing is compiled. -/
theorem World.Seeded.eval_obtainExecutable {world between : World} {setting : Setting}
    {name text tag key : String} {executable : ExecutableId} {id : DescriptorId}
    (seeded : world.Seeded name text tag key executable id) (tended : Tended [] world)
    (isKey : setting.options.compileKey = key) (sourced : setting.sourced = true)
    (valid : (isValid id).eval world = (.ok true, between)) :
    (obtainExecutable setting name).eval world = (.ok executable, between) := by
  have source : world.source.isNone = false := by
    rw [← Option.not_isSome, tended.sourced]
    rfl
  have unmarked : (world.descriptors.get id).invalidated = false := by
    rw [← Bool.not_eq_true]
    intro marked
    rw [isValid_of_marked marked] at valid
    cases valid
  have fetched : (fetchDocument name).eval world = (.ok id, between) := by
    rw [eval_fetchDocument_of_kept (seeded.kept tended unmarked), valid]
  have checks : Checked world between := (isValid_keeps id).leads valid
  have stays := seeded.grow (Grows.documenting.checked checks)
  rw [eval_obtainExecutable_of_fetched sourced source fetched, isKey, stays.slot]

theorem HostM.eval_asInclude_of_eq {α : Type} {name : String}
    {first second : HostM ExecutionError α} {world : World}
    (same : first.eval { world with includeDepth := world.includeDepth + 1 } =
      second.eval { world with includeDepth := world.includeDepth + 1 }) :
    (asInclude name first).eval world = (asInclude name second).eval world := by
  rw [HostM.eval_asInclude, HostM.eval_asInclude, same]

/-- An include of what has been seeded checks that it is valid, and runs it. -/
theorem eval_includeWithin_of_seeded {world : World} {executable included : ExecutableId}
    {name text tag : String} {id : DescriptorId} (levels : Nat) (context : ContextId)
    (seeded : world.Seeded name text tag
      (world.executables.get executable).setting.options.forIncludes.compileKey included id)
    (tended : Tended [] world)
    (sourced : (world.executables.get executable).setting.sourced = true)
    (valid : ((isValid id).eval { world with includeDepth := world.includeDepth + 1 }).1 =
      .ok true) :
    (includeWithin (levels + 1) executable name context).eval world =
      (asInclude name do
        let _ ← (isValid id).convert ExecutionError.ofDocument
        runObtained levels (world.executables.get executable) name included context).eval
          world := by
  rw [includeWithin]
  apply HostM.eval_asInclude_of_eq
  have source : world.source.isNone = false := by
    rw [← Option.not_isSome, tended.sourced]
    rfl
  have deeper : Tends (fun _ => True) world []
      { world with includeDepth := world.includeDepth + 1 } := tended.of_same rfl rfl
  obtain ⟨between, checked⟩ : ∃ between,
      (isValid id).eval { world with includeDepth := world.includeDepth + 1 } =
        (.ok true, between) := ⟨_, Prod.fst_eq_iff.1 valid⟩
  have there : World.Seeded { world with includeDepth := world.includeDepth + 1 } name text tag
      (world.executables.get executable).setting.options.forIncludes.compileKey included id :=
    seeded.grow (.of_descriptors rfl)
  have obtained : (obtainExecutable { (world.executables.get executable).setting with
      options := (world.executables.get executable).setting.options.forIncludes } name).eval
        { world with includeDepth := world.includeDepth + 1 } = (.ok included, between) :=
    there.eval_obtainExecutable deeper.tended rfl sourced checked
  rw [HostM.eval_bind_of_ok (HostM.eval_get _),
    HostM.eval_bind_of_ok (HostM.eval_convert_of_ok checked)]
  dsimp only
  rw [if_neg (by simp [sourced, source]),
    HostM.eval_bind_of_ok (HostM.eval_convert_of_ok obtained)]
  rfl

/-- The in-flow codes of a document have names of their own when it has been compiled, and each
is in the source under its name, with its text and its language, and so is what it was compiled
to as one program in that language.  From then on its descriptor is the one under the name until
it is marked, and for as long as it is valid, an include of the name by the document runs what
the code was compiled to, whatever the parser of included documents is. -/
theorem inFlow_run_as_compiled {allowed : Bond → Prop} {origin world after : World}
    (unused : origin.Unused) (run : ActsOn allowed origin world) {setting : Setting}
    {document : Document} {executable : ExecutableId}
    (parser : setting.options.parser = scriptletsParser)
    (lacks : ∀ code ∈ world.inFlowCodes setting document, world.Lacks (code.name document))
    (made : (newExecutable setting document).eval world = (.ok executable, after)) :
    ((world.inFlowCodes setting document).map fun code => code.name document).Nodup ∧
      ∀ code ∈ world.inFlowCodes setting document, ∃ id inFlow,
        ∀ later, Proceeds allowed after later →
          code.Planted setting document world later id inFlow ∧
          ((later.descriptors.get id).invalidated = false →
            later.kept? (code.name document) = some id) ∧
          ∀ levels context,
            ((isValid id).eval { later with includeDepth := later.includeDepth + 1 }).1 =
              .ok true →
            (includeWithin (levels + 1) executable (code.name document) context).eval later =
              (asInclude (code.name document) do
                let _ ← (isValid id).convert ExecutionError.ofDocument
                runObtained levels (later.executables.get executable) (code.name document) inFlow
                  context).eval later := by
  obtain ⟨⟨segments, form⟩, planted⟩ := planted_of_newExecutable parser lacks made
  refine ⟨world.nodup_inFlowCodes setting document, fun code member => ?_⟩
  obtain ⟨sourced, id, inFlow, plantedAfter⟩ := planted code member
  refine ⟨id, inFlow, fun later proceeds => ?_⟩
  have compiles : Acts allowed world ((newExecutable setting document).eval world).2 :=
    .compile setting document
  rw [made] at compiles
  have tended : Tended [] later :=
    (unused.tended.changes
      ((run.changes.trans compiles.changes).trans proceeds.changes)).tended
  have plantedLater := plantedAfter.later (.changes proceeds.changes) proceeds.programs
  have same := (form.later proceeds.programs).setting
  refine ⟨plantedLater, plantedLater.seeded.kept tended, fun levels context valid => ?_⟩
  have seeded := plantedLater.seeded
  rw [← same] at seeded sourced
  exact eval_includeWithin_of_seeded levels context seeded tended sourced valid

section Flowing

/-- A host that speaks two languages and keeps its documents in memory. -/
def flowingHost : World where
  toLanguages := .of
    [⟨Mini.adapter (.ofTag "Mini" "mini"), true⟩, ⟨Echo.adapter (.ofTag "Echo" "echo") {}, true⟩]
    [[⟨0⟩, ⟨1⟩]]
  source := some (.inMemory "m")
  sinks := ⟨[{}, {}]⟩

/-- A document with in-flow code in a language that is not its own. -/
def flowing : Document where
  name := "x"
  text := "<%:echo one%> two"
  timestamp := ⟨0⟩

/-- Documents that are included are literal texts. -/
def flowingSetting : Setting where
  registry := ⟨0⟩
  sourced := true
  options := { parser := scriptletsParser, includeParser := textParser, defaultTag := some "mini" }

def flowingCompiled : World :=
  ((newExecutable flowingSetting flowing).eval flowingHost).2

/-- The document has been run in a new context. -/
def flowingRun : World :=
  ((execute ⟨1⟩ ⟨0⟩).eval
    ((newContext ⟨0⟩ ⟨1⟩ : HostM Empty ContextId).eval flowingCompiled).2).2

theorem proceeds_flowingRun : Proceeds (fun _ => False) flowingCompiled flowingRun := by
  have makes : Proceeds (fun _ => False) flowingCompiled
      ((newContext ⟨0⟩ ⟨1⟩ : HostM Empty ContextId).eval flowingCompiled).2 :=
    .newContext _ ⟨0⟩ ⟨1⟩ flowingCompiled
  have executes : (execute ⟨1⟩ ⟨0⟩).Keeps (Proceeds fun _ => False) :=
    (Proceeds.executing _).execute ⟨1⟩ ⟨0⟩ none nofun
  exact (Proceeds.lasting _).trans makes (executes _)

theorem inFlow_run_as_compiled_echo :
    flowingHost.Unused ∧
      (∀ code ∈ flowingHost.inFlowCodes flowingSetting flowing,
        flowingHost.Lacks (code.name flowing)) ∧
      flowingHost.inFlowCodes flowingSetting flowing = [⟨0, "echo", "one"⟩] ∧
      (flowingRun.sinks.get ⟨0⟩).text = "one two" ∧
      flowingRun.kept? (inFlowDocumentName flowing 0) = some ⟨0⟩ ∧
      ∀ levels,
        (includeWithin (levels + 1) ⟨1⟩ (inFlowDocumentName flowing 0) ⟨0⟩).eval flowingRun =
          (asInclude (inFlowDocumentName flowing 0) do
            let _ ← (isValid ⟨0⟩).convert ExecutionError.ofDocument
            runObtained levels (flowingRun.executables.get ⟨1⟩) (inFlowDocumentName flowing 0) ⟨0⟩
              ⟨0⟩).eval flowingRun := by
  have unused : flowingHost.Unused := ⟨rfl, rfl, rfl⟩
  have lacks : ∀ code ∈ flowingHost.inFlowCodes flowingSetting flowing,
      flowingHost.Lacks (code.name flowing) := fun _ _ => ⟨rfl, nofun⟩
  obtain ⟨⟨succeeded, codes⟩, output, descriptors, executables, parser, unmarked, valid⟩ :
      (((newExecutable flowingSetting flowing).eval flowingHost).1 = .ok ⟨1⟩ ∧
        flowingHost.inFlowCodes flowingSetting flowing = [⟨0, "echo", "one"⟩]) ∧
      (flowingRun.sinks.get ⟨0⟩).text = "one two" ∧ flowingRun.descriptors.size = 1 ∧
        flowingRun.executables.size = 2 ∧
        (flowingRun.executables.get ⟨1⟩).setting.options.parser = scriptletsParser ∧
        (flowingRun.descriptors.get ⟨0⟩).invalidated = false ∧
        ((isValid ⟨0⟩).eval { flowingRun with includeDepth := flowingRun.includeDepth + 1 }).1 =
          .ok true := by decide +kernel
  obtain ⟨-, planted⟩ :=
    inFlow_run_as_compiled unused .refl rfl lacks (Prod.fst_eq_iff.1 succeeded)
  obtain ⟨⟨place⟩, ⟨made⟩, onward⟩ := planted ⟨0, "echo", "one"⟩ (by simp [codes])
  obtain ⟨there, keptWhile, runs⟩ := onward flowingRun proceeds_flowingRun
  obtain ⟨segments, -, form⟩ := there.form
  -- one descriptor has been made, and the other executable is that of the document
  have known := there.seeded.known
  have formKnown := form.known
  rw [descriptors] at known
  rw [executables] at formKnown
  have isPlace : place = 0 := Nat.lt_one_iff.1 known
  have isMade : made = 0 := by
    rcases Nat.lt_succ_iff_lt_or_eq.1 formKnown with first | second
    · exact Nat.lt_one_iff.1 first
    · dsimp only at second
      subst second
      rw [form.setting] at parser
      exact absurd parser (by decide)
  subst isPlace isMade
  exact ⟨unused, lacks, codes, output, keptWhile unmarked, fun levels => runs levels ⟨0⟩ valid⟩

end Flowing

end DocumentHost
