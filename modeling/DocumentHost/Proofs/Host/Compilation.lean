import DocumentHost.Proofs.Host.Aside

/-!
# What a compilation keeps

Compiling reads adapters, takes over reports, and makes executables; the documents of the
host change only where in-flow code is put into the source.  So a relation between states
that tolerates changes aside lasts through a compilation if it lasts through that one step.
-/

namespace DocumentHost

/-- In-flow code that has been put into the source is made to depend on the document it stands
in, if that document can be had from the source. -/
def attachInFlow (document : Document) (seeded : DescriptorId) : HostM ParsingError Unit :=
  keeping { descriptors := [seeded] } do
    if document.partition = (← get).sourceIdentifier then
      let parent ← ((fetchDocument document.name).convert ParsingError.document).attempt
      match parent with
      | .ok parent => modify fun world => world.linkDependent parent seeded
      | .error _ => pure ()

/-- The part of in-flow code that changes documents: the compiled code is put into the source
and made to depend on the document it stands in. -/
def plantInFlow (document : Document) (name code tag : String) (form : String × ExecutableId) :
    HostM ParsingError Unit := do
  let seeded ← seedDocument name code tag (some form)
  keeping { descriptors := [seeded] } do
    if document.partition = (← get).sourceIdentifier then
      let parent ← ((fetchDocument document.name).convert ParsingError.document).attempt
      match parent with
      | .ok parent => modify fun world => world.linkDependent parent seeded
      | .error _ => pure ()

theorem plantInFlow_eq (document : Document) (name code tag : String)
    (form : String × ExecutableId) :
    plantInFlow document name code tag form = (do
      let seeded ← seedDocument name code tag (some form)
      attachInFlow document seeded) :=
  rfl

theorem seedInFlow_eq (setting : Setting) (document : Document) (name code tag : String) :
    seedInFlow setting document name code tag = (do
      let inFlow : Document :=
        { name, partition := document.partition, text := code, timestamp := document.timestamp }
      let inFlowSetting := setting.forInFlow tag
      let executable ←
        makeExecutable inFlowSetting inFlow (← programSegments inFlowSetting inFlow)
      plantInFlow document name code tag
        (setting.options.forIncludes.compileKey, executable)) :=
  rfl

namespace Tolerant

variable {Related : World → World → Prop}

theorem requireAdapter (tolerant : Tolerant Related) (setting : Setting) (place : Place)
    (tag : String) : (requireAdapter setting place tag).Keeps Related := by
  unfold DocumentHost.requireAdapter
  refine Lasting.get fun world => ?_
  split
  · exact tolerant.lasting.pure _ world
  · exact tolerant.lasting.throw _ world

theorem compileSegment (tolerant : Tolerant Related) (setting : Setting) (document : Document)
    (isScriptlet : Bool) (segment : RawSegment) :
    (compileSegment setting document isScriptlet segment).Keeps Related := by
  unfold DocumentHost.compileSegment
  split
  · exact tolerant.lasting.pure _
  dsimp only
  split
  · exact tolerant.lasting.throw _
  · refine tolerant.lasting.bind (tolerant.requireAdapter _ _ _) fun id => ?_
    refine Lasting.get fun world => ?_
    exact tolerant.lasting.bind (tolerant.ofReported _)
      (fun program => tolerant.lasting.pure _) world

/-- By induction on the segments. -/
theorem compileSegments (tolerant : Tolerant Related) (setting : Setting) (document : Document)
    (isScriptlet : Bool) (segments : List RawSegment) :
    (compileSegments setting document isScriptlet segments).Keeps Related := by
  induction segments with
  | nil => exact tolerant.lasting.pure _
  | cons segment rest ih =>
      refine tolerant.lasting.bind (tolerant.compileSegment _ _ _ segment) fun compiled => ?_
      exact tolerant.lasting.bind ih fun others => tolerant.lasting.pure _

/-- By induction on the segments. -/
theorem prepareSegments (tolerant : Tolerant Related) (segments : List Segment) :
    (prepareSegments segments).Keeps Related := by
  induction segments with
  | nil => exact tolerant.lasting.pure _
  | cons segment rest ih =>
      cases segment with
      | literal text position => exact ih
      | program text tag position adapter program =>
          exact tolerant.lasting.bind (tolerant.ofReported _) fun _ => ih

theorem makeExecutable (tolerant : Tolerant Related) (setting : Setting) (document : Document)
    (segments : List Segment) : (makeExecutable setting document segments).Keeps Related := by
  unfold DocumentHost.makeExecutable
  refine tolerant.lasting.bind tolerant.readClock fun lastUsed => ?_
  dsimp only
  split
  · exact tolerant.lasting.bind (Lasting.convert _ (tolerant.prepareSegments segments)) fun _ =>
      Lasting.get fun world => tolerant.outside (.addExecutable world rfl)
  · exact Lasting.get fun world => tolerant.outside (.addExecutable world rfl)

theorem programSegments (tolerant : Tolerant Related) (setting : Setting) (document : Document) :
    (programSegments setting document).Keeps Related :=
  Lasting.get fun world => tolerant.compileSegments _ _ _ _ world

theorem codeForInclude (tolerant : Tolerant Related) (place : Place) (adapter : AdapterId)
    (expression : String) : (codeForInclude place adapter expression).Keeps Related :=
  Lasting.get fun world => tolerant.lasting.ofExcept _ world

theorem codeForExpression (tolerant : Tolerant Related) (place : Place) (adapter : AdapterId)
    (expression : String) : (codeForExpression place adapter expression).Keeps Related :=
  Lasting.get fun world => tolerant.lasting.ofExcept _ world

section InFlow

variable {document : Document}

/-- In-flow code is put into the source under a name that is made from the document. -/
theorem inFlowSegment (tolerant : Tolerant Related) {number : Nat}
    (plant : ∀ code tag form,
      (plantInFlow document (inFlowDocumentName document number) code tag form).Keeps Related)
    (setting : Setting) (activeTag : Option String) (code tag : String) (position : Position) :
    (inFlowSegment setting document activeTag number code tag position).Keeps Related := by
  unfold DocumentHost.inFlowSegment
  refine Lasting.get fun world => ?_
  dsimp only
  split
  · exact tolerant.lasting.throw _ world
  split
  · exact tolerant.lasting.throw _ world
  · refine tolerant.lasting.bind (tolerant.requireAdapter _ _ _) (fun adapter => ?_) world
    refine tolerant.lasting.bind ?_ fun _ => ?_
    · rw [seedInFlow_eq]
      refine tolerant.lasting.bind (tolerant.programSegments _ _) fun segments => ?_
      refine tolerant.lasting.bind (tolerant.makeExecutable _ _ _) fun executable => ?_
      exact plant code tag _
    · exact tolerant.lasting.bind (tolerant.codeForInclude _ _ _) fun text =>
        tolerant.lasting.pure _

theorem scriptletSegment (tolerant : Tolerant Related) {number : Nat}
    (plant : ∀ code tag form,
      (plantInFlow document (inFlowDocumentName document number) code tag form).Keeps Related)
    (setting : Setting) (activeTag : Option String) (body : List Char) (position : Position) :
    (scriptletSegment setting document activeTag number body position).Keeps Related := by
  unfold DocumentHost.scriptletSegment
  dsimp only
  split
  · exact tolerant.lasting.pure _
  split
  · exact tolerant.lasting.throw _
  · refine tolerant.lasting.bind (tolerant.requireAdapter _ _ _) fun adapter => ?_
    refine Lasting.get fun world => ?_
    split
    · exact tolerant.lasting.bind (tolerant.codeForExpression _ _ _)
        (fun text => tolerant.lasting.pure _) world
    · exact tolerant.lasting.bind (tolerant.codeForInclude _ _ _)
        (fun text => tolerant.lasting.pure _) world
    · split
      · exact tolerant.lasting.pure _ world
      · exact tolerant.lasting.bind (tolerant.inFlowSegment plant _ _ _ _ _)
          (fun segment => tolerant.lasting.pure _) world
    · exact tolerant.lasting.pure _ world

/-- By induction on the pieces. -/
theorem segmentsOfPieces (tolerant : Tolerant Related)
    (plant : ∀ number code tag form,
      (plantInFlow document (inFlowDocumentName document number) code tag form).Keeps Related)
    (setting : Setting) (closing : String) (tag : Option String) (number : Nat)
    (pieces : List Piece) :
    (segmentsOfPieces setting document closing tag number pieces).Keeps Related := by
  induction pieces generalizing tag number with
  | nil => exact tolerant.lasting.pure _
  | cons piece rest ih =>
      cases piece with
      | literal text position =>
          exact tolerant.lasting.bind (ih _ _) fun others => tolerant.lasting.pure _
      | scriptlet body position =>
          refine tolerant.lasting.bind (tolerant.scriptletSegment (plant number) _ _ _ _)
            fun outcome => ?_
          obtain ⟨segment, nextTag⟩ := outcome
          cases segment with
          | none => exact ih _ _
          | some segment =>
              exact tolerant.lasting.bind (ih _ _) fun others => tolerant.lasting.pure _
      | unclosed position => exact tolerant.lasting.throw _

theorem splitDocument (tolerant : Tolerant Related)
    (plant : ∀ number code tag form,
      (plantInFlow document (inFlowDocumentName document number) code tag form).Keeps Related)
    (setting : Setting) : (splitDocument setting document).Keeps Related := by
  unfold DocumentHost.splitDocument
  refine Lasting.get fun world => ?_
  dsimp only
  split
  · exact tolerant.lasting.pure _ world
  · exact tolerant.segmentsOfPieces plant _ _ _ _ _ world

theorem newExecutable (tolerant : Tolerant Related)
    (plant : ∀ number code tag form,
      (plantInFlow document (inFlowDocumentName document number) code tag form).Keeps Related)
    (setting : Setting) : (newExecutable setting document).Keeps Related := by
  have scriptlets : (scriptletSegments setting document).Keeps Related :=
    tolerant.lasting.bind (tolerant.splitDocument plant setting) fun raw =>
      Lasting.get fun world => tolerant.compileSegments _ _ _ _ world
  unfold DocumentHost.newExecutable
  have made (segments : List Segment) := tolerant.makeExecutable setting document segments
  dsimp only
  split
  · exact tolerant.lasting.bind (tolerant.programSegments _ _) made
  split
  · exact tolerant.lasting.bind (tolerant.compileSegments _ _ _ _) made
  split
  · exact tolerant.lasting.bind scriptlets made
  · exact tolerant.lasting.bind (tolerant.lasting.throw _) made

end InFlow

end Tolerant

end DocumentHost
