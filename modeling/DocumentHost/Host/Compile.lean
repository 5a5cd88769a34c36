import DocumentHost.Host.Source
import DocumentHost.Language.Registry
import DocumentHost.Options.Key
import DocumentHost.Segment.Merging
import DocumentHost.Segment.Piece

/-!
# Compiling documents

A document goes through the parser that the options name.  The program parser
takes it as one program, the text parser as one literal, and the scriptlets
parser cuts it into pieces.  A scriptlet may switch the language, print an
expression, include a document, or stand for a document of its own: such
in-flow code is compiled at once, put into the source under a name made from
the document, and included from there.
-/

namespace DocumentHost

/-- A document that is to be compiled. -/
structure Document where
  name : String
  /-- The identifier of the source the document came from. -/
  partition : String := ""
  tag : Option String := none
  text : String
  timestamp : Instant
deriving DecidableEq, Repr, Inhabited

namespace Document

/-- A place in the document. -/
def place (document : Document) (position : Position) : Place :=
  ⟨document.name, position⟩

end Document

/-- The adapter for a tag; there has to be one. -/
def requireAdapter (setting : Setting) (place : Place) (tag : String) :
    HostM ParsingError AdapterId := do
  match (← get).adapterForTag setting.registry tag with
  | some adapter => return adapter
  | none => throw (.noAdapter place tag)

/-- The tag that untagged code of a document starts out with: the one of the options,
or else that of the adapter for the document's extension. -/
def World.initialTag (world : World) (setting : Setting) (document : Document) :
    Option String :=
  setting.options.defaultTag.or
    ((world.adapterForExtension setting.registry document.name document.tag).map fun adapter =>
      (world.profile adapter).defaultTag)

/-- Code that prints a literal text in the language of a tag. -/
def World.codeForLiteral (world : World) (setting : Setting) (tag text : String) :
    Option String :=
  (world.adapterForTag setting.registry tag).bind fun adapter =>
    (world.adapters.get adapter).adapter.codeForLiteral text

/-! ## From raw segments to executables -/

/-- Compile one raw segment. -/
def compileSegment (setting : Setting) (document : Document) (isScriptlet : Bool)
    (segment : RawSegment) : HostM ParsingError Segment := do
  match segment.kind with
  | .literal => return .literal segment.text segment.position
  | .program =>
      let place := document.place segment.position
      match segment.tag with
      | none => throw (.noAdapter place "")
      | some tag =>
          let id ← requireAdapter setting place tag
          let adapter := ((← get).adapters.get id).adapter
          let program ← HostM.ofReported (adapter.compile ⟨segment.text, place, isScriptlet⟩)
          return .program segment.text tag segment.position id program

/-- Compile raw segments in order. -/
def compileSegments (setting : Setting) (document : Document) (isScriptlet : Bool) :
    List RawSegment → HostM ParsingError (List Segment)
  | [] => pure []
  | segment :: rest => do
      let compiled ← compileSegment setting document isScriptlet segment
      let others ← compileSegments setting document isScriptlet rest
      return compiled :: others

/-- Prepare the programs among some segments, in order. -/
def prepareSegments : List Segment → HostM PreparationError Unit
  | [] => pure ()
  | .literal _ _ :: rest => prepareSegments rest
  | .program _ _ _ _ program :: rest => do
      HostM.ofReported program.prepare
      prepareSegments rest

/-- Make the executable of a document that has been compiled to segments. -/
def makeExecutable (setting : Setting) (document : Document) (segments : List Segment) :
    HostM ParsingError ExecutableId := do
  let lastUsed ← readClock
  if setting.options.prepare then
    (prepareSegments segments).convert ParsingError.preparation
  let world ← get
  let (id, executables) := world.executables.add
    { documentName := document.name
      partition := document.partition
      timestamp := document.timestamp
      setting
      segments
      lastUsed }
  set { world with executables }
  return id

/-- The segments of a document that is one program. -/
def programSegments (setting : Setting) (document : Document) :
    HostM ParsingError (List Segment) := do
  let tag := (← get).initialTag setting document
  compileSegments setting document false [.program document.text tag .start]

/-- The segments of a document that is one literal. -/
def textSegments (setting : Setting) (document : Document) :
    HostM ParsingError (List Segment) :=
  compileSegments setting document false [.literal document.text none .start]

/-! ## In-flow documents -/

/-- The name of in-flow code: a digest of the document it stands in, and the number of
segments before it. -/
def inFlowDocumentName (document : Document) (number : Nat) : String :=
  let identity := document.partition ++ "|" ++ document.name ++ "|" ++ document.timestamp.render
  "_IN_FLOW_" ++ Text.hexOfBytes ((Digest.ofBytes (Text.encode identity)).take 8) ++ "_" ++
    toString number

/-- The setting in which in-flow code is compiled: as a program in its own language. -/
def Setting.forInFlow (setting : Setting) (tag : String) : Setting :=
  { setting with options :=
      { setting.options with parser := programParser, defaultTag := some tag } }

/-- Ask for code of an adapter. -/
def requireCode (world : World) (place : Place) (adapter : AdapterId) (kind : CodeKind)
    (code : Option String) : Except ParsingError String :=
  match code with
  | some text => .ok text
  | none => .error (.unsupported place (world.profile adapter).name kind)

/-- Code that includes what an expression names. -/
def codeForInclude (place : Place) (adapter : AdapterId) (expression : String) :
    HostM ParsingError String := do
  let world ← get
  HostM.ofExcept (requireCode world place adapter .documentInclude
    ((world.adapters.get adapter).adapter.codeForInclude expression))

/-- Code that prints the value of an expression. -/
def codeForExpression (place : Place) (adapter : AdapterId) (expression : String) :
    HostM ParsingError String := do
  let world ← get
  HostM.ofExcept (requireCode world place adapter .expressionOutput
    ((world.adapters.get adapter).adapter.codeForExpression expression))

/-- Compile in-flow code, put it into the source, and make it depend on the document
it stands in. -/
def seedInFlow (setting : Setting) (document : Document) (name code tag : String) :
    HostM ParsingError Unit := do
  let inFlow : Document :=
    { name, partition := document.partition, text := code, timestamp := document.timestamp }
  let inFlowSetting := setting.forInFlow tag
  let executable ← makeExecutable inFlowSetting inFlow (← programSegments inFlowSetting inFlow)
  let key := setting.options.forIncludes.compileKey
  let seeded ← seedDocument name code tag (some (key, executable))
  keeping { descriptors := [seeded] } do
    if document.partition = (← get).sourceIdentifier then
      let parent ← ((fetchDocument document.name).convert ParsingError.document).attempt
      match parent with
      | .ok parent => modify fun world => world.linkDependent parent seeded
      | .error _ => pure ()

/-- The segment of in-flow code in a language other than the active one. -/
def inFlowSegment (setting : Setting) (document : Document) (activeTag : Option String)
    (number : Nat) (code tag : String) (position : Position) :
    HostM ParsingError RawSegment := do
  let place := document.place position
  if !setting.sourced || (← get).source.isNone then throw (.needsSource document.name)
  match activeTag with
  | none => throw (.noAdapter place "")
  | some active =>
      let adapter ← requireAdapter setting place active
      let name := inFlowDocumentName document number
      seedInFlow setting document name code tag
      let text ← codeForInclude place adapter ("\"" ++ name ++ "\"")
      return .program text (some active) position

/-! ## Scriptlets -/

/-- The segment of a scriptlet, unless it is a comment, and the tag in effect behind
it.  `number` counts the segments before it. -/
def scriptletSegment (setting : Setting) (document : Document)
    (activeTag : Option String) (number : Nat) (body : List Char) (position : Position) :
    HostM ParsingError (Option RawSegment × Option String) := do
  let place := document.place position
  let (treatment, marked) := treatmentOf body setting.options.markers.treatments
  if treatment = .comment then return (none, activeTag)
  let (explicit, code) := leadingTag marked
  let explicitTag := explicit.map String.ofList
  let code := String.ofList code
  match explicitTag.or activeTag with
  | none => throw (.noAdapter place "")
  | some tag =>
      let adapter ← requireAdapter setting place tag
      let sticks := explicitTag.isSome && treatment != .inFlow &&
        !((← get).profile adapter).ephemeral
      let nextTag := if sticks then some tag else activeTag
      match treatment with
      | .expression =>
          let text ← codeForExpression place adapter code
          return (some (.program text (some tag) position), nextTag)
      | .documentInclude =>
          let text ← codeForInclude place adapter code
          return (some (.program text (some tag) position), nextTag)
      | .inFlow =>
          if activeTag = some tag then
            return (some (.program code (some tag) position), nextTag)
          else
            let segment ← inFlowSegment setting document activeTag number code tag position
            return (some segment, nextTag)
      | _ => return (some (.program code (some tag) position), nextTag)

/-- The raw segments of pieces, given the tag in effect and the number of segments
before them. -/
def segmentsOfPieces (setting : Setting) (document : Document) (closing : String) :
    Option String → Nat → List Piece → HostM ParsingError (List RawSegment)
  | _, _, [] => pure []
  | tag, number, .literal text position :: rest => do
      let others ← segmentsOfPieces setting document closing tag (number + 1) rest
      return .literal (String.ofList text) tag position :: others
  | tag, number, .scriptlet body position :: rest => do
      let (segment, nextTag) ← scriptletSegment setting document tag number body position
      match segment with
      | some segment => do
          let others ← segmentsOfPieces setting document closing nextTag (number + 1) rest
          return segment :: others
      | none => segmentsOfPieces setting document closing nextTag number rest
  | _, _, .unclosed position :: _ =>
      throw (.malformed (document.place position)
        ("unterminated scriptlet, expected '" ++ closing ++ "'"))

/-- The raw segments of a document with scriptlets.  Without any opening delimiter it
is one literal, even if it is empty. -/
def splitDocument (setting : Setting) (document : Document) :
    HostM ParsingError (List RawSegment) := do
  let tag := (← get).initialTag setting document
  let text := document.text.toList
  match Fence.ofDocument? setting.options.delimiters text with
  | none => return [.literal document.text tag .start]
  | some fence =>
      segmentsOfPieces setting document (String.ofList fence.closing) tag 0
        (Piece.cut fence text .start)

/-- The segments of a document with scriptlets.  A document that is one literal is
left as it is. -/
def scriptletSegments (setting : Setting) (document : Document) :
    HostM ParsingError (List Segment) := do
  let raw ← splitDocument setting document
  let world ← get
  let merged :=
    match raw with
    | [segment] =>
        if segment.isLiteral then raw
        else RawSegment.normalize (world.codeForLiteral setting) raw
    | _ => RawSegment.normalize (world.codeForLiteral setting) raw
  compileSegments setting document true merged

/-! ## Executables -/

/-- Compile a document with the parser that the options name. -/
def newExecutable (setting : Setting) (document : Document) :
    HostM ParsingError ExecutableId := do
  let parser := setting.options.parser
  let segments ←
    if parser = programParser then programSegments setting document
    else if parser = textParser then textSegments setting document
    else if parser = scriptletsParser then scriptletSegments setting document
    else throw (.unknownParser parser)
  makeExecutable setting document segments

/-- Take a document from the source and compile it, at most once for each descriptor
and compile key.  A compilation that fails leaves the slot empty. -/
def obtainExecutable (setting : Setting) (name : String) : HostM ParsingError ExecutableId := do
  if !setting.sourced || (← get).source.isNone then throw (.needsSource name)
  let id ← (fetchDocument name).convert ParsingError.document
  let descriptor := (← get).descriptors.get id
  let key := setting.options.compileKey
  match descriptor.slots.get? key with
  | some present => return present
  | none =>
      let executable ← newExecutable setting
        { name := descriptor.name
          partition := descriptor.partition
          tag := if descriptor.tag = "" then none else some descriptor.tag
          text := descriptor.text
          timestamp := descriptor.timestamp }
      let world ← get
      modify fun world => (world.fillSlot id key executable).2
      return (world.fillSlot id key executable).1

end DocumentHost
