import Mathlib
import DocumentHost.Proofs.Host.RawExecution

/-!
# Executing a document is walking its pieces

Optimising a document does not change what it does: its executable has the effect of its
raw segments, each of which is compiled by itself.  Two things are needed.  An output that
refuses a text also refuses what has been joined to it; and an adapter must not be chosen
by the record of a context, which differs between the two runs.
-/

namespace DocumentHost

/-- Executing the executable of a document has the effect of executing its raw segments one
by one. -/
theorem execute_like_pieces {origin behind : World} {setting : Setting} {raw : List RawSegment}
    (speaks : origin.SpeaksMini) (parser : setting.options.parser = scriptletsParser)
    (split : (splitDocument setting document).eval origin = (.ok raw, behind))
    (alone : ∀ segment ∈ raw, segment.Standalone) :
    ∃ pieces executable compiled,
      (compileSegments setting document true raw).eval behind = (.ok pieces, behind) ∧
      (newExecutable setting document).eval origin = (.ok executable, compiled) ∧
      ∀ world context container, world.SpeaksMini →
        SameProgram (compiled.executables.get executable) (world.executables.get executable) →
        context.index < world.contexts.size → (world.contexts.get context).released = false →
        SameEffect (Indistinct context) document.name context (RawSegment.JoinedLiterals raw)
          ((executeSegments executable document.name pieces context container).eval world)
          ((execute executable context container).eval world) := by
  obtain ⟨pieces, executable, compiled, apart, made, name, piecesCompiled, merged⟩ :=
    newExecutable_of_split speaks parser split alone
  refine ⟨pieces, executable, compiled, apart, made, ?_⟩
  intro world context container worldSpeaks same known unreleased
  obtain ⟨-, still⟩ := splitDocument_known speaks split
  have listed : (executable, executable) ∈ [(executable, executable)] := by simp
  apply execute_sameEffect _ worldSpeaks known unreleased container
  rw [← same.documentName, ← same.segments, name]
  refine (compiled_refines listed piecesCompiled).symm.after ?_
  refine Refines.trans ?_ (compiled_refines listed merged)
  exact normalize_refines listed (still.speaks.codeForLiteral_eq setting) alone

/-- A host with the standard adapter and one context. -/
def standardHost : World where
  toLanguages := .of [{ adapter := Mini.standard, claimed := true }] [[⟨0⟩]]
  contexts := ⟨[{ output := ⟨0⟩, errorOutput := ⟨1⟩ }]⟩
  sinks := ⟨[{}, {}]⟩

def plainScriptlets : Setting where
  registry := ⟨0⟩
  sourced := false
  options := { parser := scriptletsParser, defaultTag := some Mini.miniTag }

def greeting : Document where
  name := "page"
  text := "A<% print \"x\";%>B"
  timestamp := ⟨0⟩

def greetingSegments : List RawSegment :=
  [.literal "A" (some "mini") ⟨1, 1⟩, .program " print \"x\";" (some "mini") ⟨1, 2⟩,
    .literal "B" (some "mini") ⟨1, 17⟩]

theorem splitDocument_greeting :
    (splitDocument plainScriptlets greeting).eval standardHost =
      (.ok greetingSegments, standardHost) := by
  cbv

/-- A host whose only adapter is the standard one. -/
theorem speaksMini_of_standard {world : World}
    (adapters : world.adapters = ⟨[{ adapter := Mini.standard, claimed := true }]⟩)
    (registries : world.registries = ⟨[[⟨0⟩]]⟩) (executables : world.executables = {}) :
    world.SpeaksMini := by
  have only : ∀ registry, ∀ id ∈ world.registries.get registry, id = ⟨0⟩ := by
    intro registry id member
    rw [registries] at member
    rcases registry with ⟨_ | index⟩
    · exact List.mem_singleton.1 member
    · cases member
  refine ⟨fun registry => ⟨?_, ?_⟩, ?_, ?_⟩
  · intro first member second otherMember _ _ _
    rw [only registry first member, only registry second otherMember]
  · intro first member second otherMember _ _ _
    rw [only registry first member, only registry second otherMember]
  · intro registry id member
    rw [only registry id member, adapters]
    exact ⟨Mini.standardProfile, rfl⟩
  · rw [executables]
    intro executable member
    cases member

theorem speaksMini_standardHost : standardHost.SpeaksMini :=
  speaksMini_of_standard rfl rfl rfl

theorem standalone_greetingSegments : ∀ segment ∈ greetingSegments, segment.Standalone := by
  have printed : Mini.Continuable " print \"x\";" [.print (.text "x")] := {
    parses := rfl
    never := by simp [Mini.NeverReturns]
    ends := ⟨[.word "print", .text "x"],
      .blank (by decide) (Mini.spells_keyword_text (show "print" ∈ Mini.keywords by decide) "x")⟩ }
  intro segment member
  simp only [greetingSegments, List.mem_cons, List.not_mem_nil, or_false] at member
  rcases member with rfl | rfl | rfl
  · intro program
    cases program
  · exact fun _ => ⟨_, printed⟩
  · intro program
    cases program

def greetingExecutable : Executable where
  documentName := "page"
  partition := ""
  timestamp := ⟨0⟩
  setting := plainScriptlets
  segments :=
    [.literal "A" ⟨1, 1⟩,
      .program " print \"x\";print \"B\";" "mini" ⟨1, 17⟩ ⟨0⟩
        (Mini.programOf ⟨" print \"x\";print \"B\";", ⟨"page", ⟨1, 17⟩⟩, true⟩)]
  lastUsed := ⟨0⟩

def greetingCompiled : World :=
  { standardHost.tick with executables := ⟨[greetingExecutable]⟩ }

theorem newExecutable_greeting :
    (newExecutable plainScriptlets greeting).eval standardHost = (.ok ⟨0⟩, greetingCompiled) := by
  rw [eval_newExecutable_of_split rfl splitDocument_greeting]
  rfl

theorem speaksMini_greetingCompiled : greetingCompiled.SpeaksMini := by
  have speaks := speaksMini_standardHost.newExecutable plainScriptlets greeting
  rwa [newExecutable_greeting] at speaks

theorem execute_like_pieces_greeting :
    ∃ pieces executable compiled,
      (compileSegments plainScriptlets greeting true greetingSegments).eval standardHost =
        (.ok pieces, standardHost) ∧
      (newExecutable plainScriptlets greeting).eval standardHost = (.ok executable, compiled) ∧
      SameEffect (Indistinct ⟨0⟩) "page" ⟨0⟩ (RawSegment.JoinedLiterals greetingSegments)
        ((executeSegments executable "page" pieces ⟨0⟩ none).eval compiled)
        ((execute executable ⟨0⟩ none).eval compiled) := by
  obtain ⟨pieces, executable, compiled, apart, made, alike⟩ :=
    execute_like_pieces speaksMini_standardHost rfl splitDocument_greeting
      standalone_greetingSegments
  refine ⟨pieces, executable, compiled, apart, made, ?_⟩
  have same := newExecutable_greeting
  rw [made, Prod.mk.injEq, Except.ok.injEq] at same
  obtain ⟨rfl, rfl⟩ := same
  exact alike greetingCompiled ⟨0⟩ none speaksMini_greetingCompiled ⟨rfl, rfl, rfl, rfl⟩
    (by decide) rfl

/-! ## Where the two runs differ -/

theorem eval_walkSegments_program {executable : ExecutableId} {documentName text tag : String}
    {context : ContextId} {position : Position} {adapter : AdapterId} {program : Program}
    {rest : List Segment} {world recorded between : World}
    (records : (inContext context (Context.addAdapter adapter)).eval world = (.ok (), recorded))
    (runs : (runFor executable context program.run).eval recorded = (.ok (), between)) :
    (walkSegments (fun program => runFor executable context program.run) documentName context
      (.program text tag position adapter program :: rest)).eval world =
        (walkSegments (fun program => runFor executable context program.run) documentName context
          rest).eval between := by
  rw [walkSegments, HostM.eval_bind_of_ok records]
  exact HostM.eval_bind_of_ok (HostM.eval_convert_of_ok runs)

theorem eval_executeSegments_of_ok {executable : ExecutableId} {documentName : String}
    {segments : List Segment} {context : ContextId} {world behind : World}
    (unreleased : (world.contexts.get context).released = false)
    (walked : (walkSegments (fun program => runFor executable context program.run) documentName
      context segments).eval (world.entering context) = (.ok (), behind)) :
    (executeSegments executable documentName segments context none).eval world =
      (.ok (), ((noteUse executable : HostM ExecutionError Unit).eval behind).2.leaving world) := by
  rw [executeSegments, HostM.eval_bind_of_ok (HostM.eval_get _)]
  simp only [unreleased, Bool.false_eq_true, if_false, ite_self, withContainer]
  rw [HostM.eval_withCurrent, HostM.eval_bind_of_ok (HostM.eval_get _),
    HostM.eval_bind_of_ok walked]
  rfl

/-! ### An output that is full

Two literals with a comment between them are written at once when they have been joined. -/

/-- The standard host with room for one byte in the output. -/
def narrowHost : World :=
  { standardHost with sinks := ⟨[{ limit := some 1 }, {}]⟩ }

def commented : Document where
  name := "page"
  text := "A<%-- c %>B"
  timestamp := ⟨0⟩

def commentedSegments : List RawSegment :=
  [.literal "A" (some "mini") ⟨1, 1⟩, .literal "B" (some "mini") ⟨1, 11⟩]

def narrowCompiled : World :=
  { narrowHost.tick with
    executables := ⟨[{
      documentName := "page"
      partition := ""
      timestamp := ⟨0⟩
      setting := plainScriptlets
      segments := [.literal "AB" ⟨1, 11⟩]
      lastUsed := ⟨0⟩ }]⟩ }

theorem speaksMini_narrowHost : narrowHost.SpeaksMini :=
  speaksMini_of_standard rfl rfl rfl

theorem splitDocument_commented :
    (splitDocument plainScriptlets commented).eval narrowHost =
      (.ok commentedSegments, narrowHost) := by
  cbv

theorem standalone_commentedSegments : ∀ segment ∈ commentedSegments, segment.Standalone := by
  intro segment member
  simp only [commentedSegments, List.mem_cons, List.not_mem_nil, or_false] at member
  rcases member with rfl | rfl
  · intro program
    cases program
  · intro program
    cases program

theorem newExecutable_commented :
    (newExecutable plainScriptlets commented).eval narrowHost = (.ok ⟨0⟩, narrowCompiled) := by
  rw [eval_newExecutable_of_split rfl splitDocument_commented]
  rfl

/-- The first literal is written only if it stands alone. -/
theorem written_commented :
    (((executeSegments ⟨0⟩ "page" [.literal "A" ⟨1, 1⟩, .literal "B" ⟨1, 11⟩] ⟨0⟩ none).eval
      narrowCompiled).2.sinks.get ⟨0⟩).text = "A" ∧
    (((execute ⟨0⟩ ⟨0⟩).eval narrowCompiled).2.sinks.get ⟨0⟩).text = "" :=
  ⟨rfl, rfl⟩

/-! ### Adapters that share an extension

The document `m.x` has two programs of the adapter A.  The first includes `b.x`, whose
program is of the adapter B; the second includes `t.x`, whose first program is of A or B,
whichever is on the record as the last.  If the two programs run apart, A has been recorded
again when `t.x` is compiled; if they have been joined, it is B. -/

/-- An adapter with a tag of its own and the extension `x`. -/
def sharing (name tag : String) : AdapterEntry where
  adapter := Mini.adapter { AdapterProfile.ofTag name tag with extensions := ["x"] }
  claimed := true

def sharingHost : World where
  toLanguages := .of [sharing "A" "a", sharing "B" "b"] [[⟨0⟩, ⟨1⟩]]
  contexts := ⟨[{ output := ⟨0⟩, errorOutput := ⟨1⟩ }]⟩
  sinks := ⟨[{}, {}]⟩
  descriptors := ⟨[
    { name := "b.x", partition := "m", tag := "", text := "<%b ;%>", timestamp := ⟨0⟩ },
    { name := "t.x", partition := "m", tag := "", text := "<% return 1;%><%a print 1;%>",
      timestamp := ⟨0⟩ }]⟩
  source := some {
    identifier := "m"
    kind := .memory
    documents := ⟨[("b.x", ⟨0⟩), ("t.x", ⟨1⟩)]⟩ }

def sourcedScriptlets : Setting where
  registry := ⟨0⟩
  sourced := true
  options := { parser := scriptletsParser }

def including : Document where
  name := "m.x"
  text := "<% include \"b.x\";%><% include \"t.x\";%>"
  timestamp := ⟨0⟩

def includingSegments : List RawSegment :=
  [.program " include \"b.x\";" (some "a") ⟨1, 1⟩,
    .program " include \"t.x\";" (some "a") ⟨1, 20⟩]

theorem splitDocument_including :
    (splitDocument sourcedScriptlets including).eval sharingHost =
      (.ok includingSegments, sharingHost) := by
  cbv

theorem continuable_include_blank :
    Mini.Continuable " include \"b.x\";" [.includeDocument (.text "b.x")] where
  parses := rfl
  never := by simp [Mini.NeverReturns]
  ends := ⟨[.word "include", .text "b.x"], .blank (by decide)
    (Mini.spells_keyword_text (show "include" ∈ Mini.keywords by decide) "b.x")⟩

theorem continuable_include_returning :
    Mini.Continuable " include \"t.x\";" [.includeDocument (.text "t.x")] where
  parses := rfl
  never := by simp [Mini.NeverReturns]
  ends := ⟨[.word "include", .text "t.x"], .blank (by decide)
    (Mini.spells_keyword_text (show "include" ∈ Mini.keywords by decide) "t.x")⟩

theorem standalone_includingSegments : ∀ segment ∈ includingSegments, segment.Standalone := by
  intro segment member
  simp only [includingSegments, List.mem_cons, List.not_mem_nil, or_false] at member
  rcases member with rfl | rfl
  · exact fun _ => ⟨_, continuable_include_blank⟩
  · exact fun _ => ⟨_, continuable_include_returning⟩

/-- Both adapters are Mini adapters, and neither tag is shared. -/
theorem tagsApart_sharingHost :
    (∀ registry, sharingHost.MiniRegistry registry) ∧
      ∀ registry, ∀ first ∈ sharingHost.registries.get registry,
        ∀ second ∈ sharingHost.registries.get registry,
        ∀ tag ∈ (sharingHost.profile first).tags, tag ∈ (sharingHost.profile second).tags →
          first = second := by
  have members : ∀ registry, ∀ id ∈ sharingHost.registries.get registry,
      id = ⟨0⟩ ∨ id = ⟨1⟩ := by
    intro registry id member
    rcases registry with ⟨_ | index⟩
    · simpa [sharingHost, Languages.of, Arena.get] using member
    · cases member
  refine ⟨?_, ?_⟩
  · intro registry id member
    rcases members registry id member with rfl | rfl
    · exact ⟨_, rfl⟩
    · exact ⟨_, rfl⟩
  · intro registry first member second otherMember tag declared otherDeclared
    have first_tags : (sharingHost.profile ⟨0⟩).tags = ["a"] := rfl
    have second_tags : (sharingHost.profile ⟨1⟩).tags = ["b"] := rfl
    rcases members registry first member with rfl | rfl <;>
      rcases members registry second otherMember with rfl | rfl <;>
      simp_all

/-- A compiled program of the including document. -/
def includingPiece (text : String) (column : Nat) : Segment :=
  .program text "a" ⟨1, column⟩ ⟨0⟩ (Mini.programOf ⟨text, ⟨"m.x", ⟨1, column⟩⟩, true⟩)

def includingPieces : List Segment :=
  [includingPiece " include \"b.x\";" 1, includingPiece " include \"t.x\";" 20]

def includingExecutable : Executable where
  documentName := "m.x"
  partition := ""
  timestamp := ⟨0⟩
  setting := sourcedScriptlets
  segments := [includingPiece " include \"b.x\"; include \"t.x\";" 20]
  lastUsed := ⟨0⟩

def sharingCompiled : World :=
  { sharingHost.tick with executables := ⟨[includingExecutable]⟩ }

theorem newExecutable_including :
    (newExecutable sourcedScriptlets including).eval sharingHost = (.ok ⟨0⟩, sharingCompiled) := by
  rw [eval_newExecutable_of_split rfl splitDocument_including]
  rfl

theorem runFor_include {text name : String} (position : Position)
    (parses : Mini.parse text = .ok [.includeDocument (.text name)]) :
    runFor ⟨0⟩ ⟨0⟩ (Mini.programOf ⟨text, ⟨"m.x", position⟩, true⟩).run =
      includeDocument ⟨0⟩ name ⟨0⟩ := by
  have performed := @performProgram ⟨0⟩ including ⟨0⟩ (.program text none position) _ rfl parses
  rw [Mini.runProgram_include, runFor, runScript_request] at performed
  exact performed

theorem runFor_include_include (position : Position) :
    runFor ⟨0⟩ ⟨0⟩ (Mini.programOf ⟨" include \"b.x\"; include \"t.x\";",
        ⟨"m.x", position⟩, true⟩).run =
      includeDocument ⟨0⟩ "b.x" ⟨0⟩ >>= fun _ => includeDocument ⟨0⟩ "t.x" ⟨0⟩ := by
  have parses := (continuable_include_blank.append continuable_include_returning).parses
  have performed := @performProgram ⟨0⟩ including ⟨0⟩
    (.program (" include \"b.x\";" ++ " include \"t.x\";") none position) _ rfl parses
  rw [runFor_append continuable_include_blank.never, Mini.runProgram_include,
    Mini.runProgram_include, runFor, runFor, runScript_request, runScript_request] at performed
  exact performed

/-- The state in which the first program of `m.x` runs. -/
def begun : World :=
  (sharingCompiled.entering ⟨0⟩).modifyContext ⟨0⟩ fun context =>
    { context with adapters := [⟨0⟩], lastAdapter := some ⟨0⟩ }

def scriptletFence : Fence := ⟨"<%".toList, "%>".toList, by decide⟩

/-- Without a tag, the extension of a document decides on its language. -/
theorem initialTag_of_extension (world : World) (document : Document) {extension : String}
    (found : nameExtension? document.name = some extension) (untagged : document.tag = none) :
    world.initialTag sourcedScriptlets document =
      (world.preferred (world.declaring ⟨0⟩ AdapterProfile.extensions extension)).map fun id =>
        (world.profile id).defaultTag := by
  simp only [World.initialTag, World.adapterForExtension_eq, found, untagged]
  rfl

/-- Run the compiled form of a document that `m.x` includes. -/
def runIncluded (name : String) (included : ExecutableId) : HostM ExecutionError Unit :=
  keeping { executables := [included] } do
    recordDependency includingExecutable name
    executeWith
      (fun executable context program =>
        runScript (serveRequest (includeWithin includeLimit) executable context) program.run)
      included ⟨0⟩ none none

/-- The first time a document is included by `m.x`, it is compiled and run. -/
theorem eval_include {world compiled : World} {id : DescriptorId} {name : String}
    {included : ExecutableId} (shallow : world.includeDepth = 0)
    (main : world.executables.get ⟨0⟩ = includingExecutable)
    (source : world.source.isNone = false)
    (fetched : (fetchDocument name).eval { world with includeDepth := 1 } =
      (.ok id, { world with includeDepth := 1 }))
    (missing : (world.descriptors.get id).slots.get? sourcedScriptlets.options.compileKey = none)
    (made : (newExecutable sourcedScriptlets (world.documentOf id)).eval
      { world with includeDepth := 1 } = (.ok included, compiled))
    (vacant : (compiled.descriptors.get id).slots.get?
      sourcedScriptlets.options.compileKey = none) :
    (includeDocument ⟨0⟩ name ⟨0⟩).eval world =
      let (outcome, after) := (runIncluded name included).eval
        (compiled.fillSlot id sourcedScriptlets.options.compileKey included).2
      (outcome, { after with includeDepth := after.includeDepth - 1 }) := by
  have obtained := @eval_obtainExecutable sourcedScriptlets name
    { world with includeDepth := 1 } { world with includeDepth := 1 } compiled id included
    rfl source fetched missing made vacant
  have within := @eval_includeWithin includeLimit ⟨0⟩ included name ⟨0⟩ world
    (compiled.fillSlot id sourcedScriptlets.options.compileKey included).2
    (by rw [shallow]; decide) (by rw [main]; rfl) source (by rw [main, shallow]; exact obtained)
  rw [main] at within
  exact within

/-- The state behind a document compiled for an include. -/
def compiledForInclude (world : World) (document : Document) (segments : List RawSegment) : World :=
  ((compileSegments sourcedScriptlets document true segments >>=
    makeExecutable sourcedScriptlets document).eval { world with includeDepth := 1 }).2

/-- The state behind a document compiled for an include and run. -/
def behindIncluded (compiled : World) (id : DescriptorId) (name : String)
    (included : ExecutableId) : World :=
  let behind := ((runIncluded name included).eval
    (compiled.fillSlot id sourcedScriptlets.options.compileKey included).2).2
  { behind with includeDepth := 0 }

/-! The document `b.x` is included in the same state by both runs. -/

def blank : Document where
  name := "b.x"
  partition := "m"
  text := "<%b ;%>"
  timestamp := ⟨0⟩

def blankSegments : List RawSegment := [.program ";" (some "b") ⟨1, 1⟩]

def behindBlank : World :=
  behindIncluded (compiledForInclude begun blank blankSegments) ⟨0⟩ "b.x" ⟨1⟩

theorem splitDocument_blank :
    (splitDocument sourcedScriptlets blank).eval { begun with includeDepth := 1 } =
      (.ok blankSegments, { begun with includeDepth := 1 }) := by
  have extension : nameExtension? blank.name = some "x" := by
    cbv
  have initial :
      World.initialTag { begun with includeDepth := 1 } sourcedScriptlets blank = some "a" := by
    rw [initialTag_of_extension _ blank extension rfl]
    rfl
  have found : Fence.ofDocument? sourcedScriptlets.options.delimiters blank.text.toList =
      some scriptletFence := by
    decide
  have cut : Piece.cut scriptletFence blank.text.toList .start =
      [.scriptlet "b ;".toList ⟨1, 1⟩] := by
    cbv
  exact (eval_splitDocument initial found cut).trans rfl

theorem include_blank :
    (includeDocument ⟨0⟩ "b.x" ⟨0⟩).eval begun = (.ok (), behindBlank) := by
  have fetched : (fetchDocument "b.x").eval { begun with includeDepth := 1 } =
      (.ok ⟨0⟩, { begun with includeDepth := 1 }) := rfl
  have missing : (begun.descriptors.get ⟨0⟩).slots.get?
      sourcedScriptlets.options.compileKey = none := rfl
  have document : begun.documentOf ⟨0⟩ = blank := rfl
  have made : (newExecutable sourcedScriptlets (begun.documentOf ⟨0⟩)).eval
      { begun with includeDepth := 1 } =
        (.ok ⟨1⟩, compiledForInclude begun blank blankSegments) := by
    rw [document, eval_newExecutable_of_split rfl splitDocument_blank]
    rfl
  exact (eval_include rfl rfl rfl fetched missing made rfl).trans rfl

/-! The document `t.x` is included with one or the other adapter recorded last. -/

def returning : Document where
  name := "t.x"
  partition := "m"
  text := "<% return 1;%><%a print 1;%>"
  timestamp := ⟨0⟩

/-- The state in which `t.x` is included, by the adapter recorded last. -/
def recorded (last : AdapterId) : World :=
  behindBlank.modifyContext ⟨0⟩ fun context => { context with lastAdapter := some last }

/-- The segments of `t.x`, by the tag of the first. -/
def returningSegments (tag : String) : List RawSegment :=
  [.program " return 1;" (some tag) ⟨1, 1⟩, .program "print 1;" (some "a") ⟨1, 15⟩]

theorem splitDocument_returning {last : AdapterId} {tag : String}
    (initial :
      World.initialTag { recorded last with includeDepth := 1 } sourcedScriptlets returning =
        some tag)
    (segments : (segmentsOfPieces sourcedScriptlets returning "%>" (some tag) 0
        [.scriptlet " return 1;".toList ⟨1, 1⟩, .scriptlet "a print 1;".toList ⟨1, 15⟩]).eval
          { recorded last with includeDepth := 1 } =
      (.ok (returningSegments tag), { recorded last with includeDepth := 1 })) :
    (splitDocument sourcedScriptlets returning).eval { recorded last with includeDepth := 1 } =
      (.ok (returningSegments tag), { recorded last with includeDepth := 1 }) := by
  have found : Fence.ofDocument? sourcedScriptlets.options.delimiters returning.text.toList =
      some scriptletFence := by
    decide
  have cut : Piece.cut scriptletFence returning.text.toList .start =
      [.scriptlet " return 1;".toList ⟨1, 1⟩, .scriptlet "a print 1;".toList ⟨1, 15⟩] := by
    cbv
  exact (eval_splitDocument initial found cut).trans segments

theorem initialTag_returning (world : World) :
    world.initialTag sourcedScriptlets returning =
      (world.preferred (world.declaring ⟨0⟩ AdapterProfile.extensions "x")).map fun id =>
        (world.profile id).defaultTag := by
  have extension : nameExtension? returning.name = some "x" := by
    cbv
  exact initialTag_of_extension world returning extension rfl

def returningJoined : List RawSegment :=
  [.program " return 1;print 1;" (some "a") ⟨1, 15⟩]

def behindRecorded : World :=
  behindIncluded (compiledForInclude (recorded ⟨0⟩) returning returningJoined) ⟨1⟩ "t.x" ⟨2⟩

def behindUnrecorded : World :=
  behindIncluded (compiledForInclude behindBlank returning (returningSegments "b")) ⟨1⟩ "t.x" ⟨2⟩

theorem include_returning_recorded :
    (includeDocument ⟨0⟩ "t.x" ⟨0⟩).eval (recorded ⟨0⟩) = (.ok (), behindRecorded) := by
  have fetched : (fetchDocument "t.x").eval { recorded ⟨0⟩ with includeDepth := 1 } =
      (.ok ⟨1⟩, { recorded ⟨0⟩ with includeDepth := 1 }) := rfl
  have missing : ((recorded ⟨0⟩).descriptors.get ⟨1⟩).slots.get?
      sourcedScriptlets.options.compileKey = none := rfl
  have document : (recorded ⟨0⟩).documentOf ⟨1⟩ = returning := rfl
  have initial := (initialTag_returning { recorded ⟨0⟩ with includeDepth := 1 }).trans rfl
  have made : (newExecutable sourcedScriptlets ((recorded ⟨0⟩).documentOf ⟨1⟩)).eval
      { recorded ⟨0⟩ with includeDepth := 1 } =
        (.ok ⟨2⟩, compiledForInclude (recorded ⟨0⟩) returning returningJoined) := by
    rw [document, eval_newExecutable_of_split rfl (@splitDocument_returning ⟨0⟩ "a" initial rfl)]
    rfl
  exact (eval_include rfl rfl rfl fetched missing made rfl).trans rfl

theorem include_returning :
    (includeDocument ⟨0⟩ "t.x" ⟨0⟩).eval behindBlank = (.ok (), behindUnrecorded) := by
  have fetched : (fetchDocument "t.x").eval { behindBlank with includeDepth := 1 } =
      (.ok ⟨1⟩, { behindBlank with includeDepth := 1 }) := rfl
  have missing : (behindBlank.descriptors.get ⟨1⟩).slots.get?
      sourcedScriptlets.options.compileKey = none := rfl
  have document : behindBlank.documentOf ⟨1⟩ = returning := rfl
  have initial := (initialTag_returning { recorded ⟨1⟩ with includeDepth := 1 }).trans rfl
  have split := @splitDocument_returning ⟨1⟩ "b" initial rfl
  have made : (newExecutable sourcedScriptlets (behindBlank.documentOf ⟨1⟩)).eval
      { behindBlank with includeDepth := 1 } =
        (.ok ⟨2⟩, compiledForInclude behindBlank returning (returningSegments "b")) := by
    have last : behindBlank = recorded ⟨1⟩ := rfl
    rw [document, last, eval_newExecutable_of_split rfl split]
    rfl
  exact (eval_include rfl rfl rfl fetched missing made rfl).trans rfl

/-! The two runs of `m.x`. -/

theorem walk_includingPieces :
    (walkSegments (fun program => runFor ⟨0⟩ ⟨0⟩ program.run) "m.x" ⟨0⟩ includingPieces).eval
      (sharingCompiled.entering ⟨0⟩) = (.ok (), behindRecorded) := by
  have first : (runFor ⟨0⟩ ⟨0⟩ (Mini.programOf
      ⟨" include \"b.x\";", ⟨"m.x", ⟨1, 1⟩⟩, true⟩).run).eval begun = (.ok (), behindBlank) := by
    rw [runFor_include ⟨1, 1⟩ continuable_include_blank.parses]
    exact include_blank
  have second : (runFor ⟨0⟩ ⟨0⟩ (Mini.programOf ⟨" include \"t.x\";",
      ⟨"m.x", ⟨1, 20⟩⟩, true⟩).run).eval (recorded ⟨0⟩) = (.ok (), behindRecorded) := by
    rw [runFor_include ⟨1, 20⟩ continuable_include_returning.parses]
    exact include_returning_recorded
  have begins : (inContext ⟨0⟩ (Context.addAdapter ⟨0⟩)).eval (sharingCompiled.entering ⟨0⟩) =
      (.ok (), begun) := by rfl
  have records : (inContext ⟨0⟩ (Context.addAdapter ⟨0⟩)).eval behindBlank =
      (.ok (), recorded ⟨0⟩) := by rfl
  rw [includingPieces, includingPiece, includingPiece, eval_walkSegments_program begins first,
    eval_walkSegments_program records second]
  exact HostM.eval_pure _ _

theorem walk_includingExecutable :
    (walkSegments (fun program => runFor ⟨0⟩ ⟨0⟩ program.run) "m.x" ⟨0⟩
      [includingPiece " include \"b.x\"; include \"t.x\";" 20]).eval
        (sharingCompiled.entering ⟨0⟩) = (.ok (), behindUnrecorded) := by
  have runs : (runFor ⟨0⟩ ⟨0⟩ (Mini.programOf ⟨" include \"b.x\"; include \"t.x\";",
      ⟨"m.x", ⟨1, 20⟩⟩, true⟩).run).eval begun = (.ok (), behindUnrecorded) := by
    rw [runFor_include_include, HostM.eval_bind_of_ok include_blank]
    exact include_returning
  have begins : (inContext ⟨0⟩ (Context.addAdapter ⟨0⟩)).eval (sharingCompiled.entering ⟨0⟩) =
      (.ok (), begun) := by rfl
  rw [includingPiece, eval_walkSegments_program begins runs]
  exact HostM.eval_pure _ _

theorem written_behindRecorded : (behindRecorded.sinks.get ⟨0⟩).text = "" := by rfl

theorem written_behindUnrecorded : (behindUnrecorded.sinks.get ⟨0⟩).text = "1" := by rfl

/-- The program of `t.x` prints only if its two parts are in different languages. -/
theorem written_including :
    (((executeSegments ⟨0⟩ "m.x" includingPieces ⟨0⟩ none).eval sharingCompiled).2.sinks.get
      ⟨0⟩).text = "" ∧
    (((execute ⟨0⟩ ⟨0⟩).eval sharingCompiled).2.sinks.get ⟨0⟩).text = "1" := by
  have main : sharingCompiled.executables.get ⟨0⟩ = includingExecutable := by rfl
  rw [eval_execute, main, eval_executeSegments_of_ok rfl walk_includingPieces]
  rw [includingExecutable, eval_executeSegments_of_ok rfl walk_includingExecutable]
  exact ⟨written_behindRecorded, written_behindUnrecorded⟩

/-- Without room for what has been joined, or where adapters share an extension, a document
is not executed like its pieces. -/
theorem execute_unlike_pieces :
    (narrowHost.SpeaksMini ∧
      (splitDocument plainScriptlets commented).eval narrowHost =
        (.ok commentedSegments, narrowHost) ∧
      (∀ segment ∈ commentedSegments, segment.Standalone) ∧
      ∃ pieces executable compiled,
        (compileSegments plainScriptlets commented true commentedSegments).eval narrowHost =
          (.ok pieces, narrowHost) ∧
        (newExecutable plainScriptlets commented).eval narrowHost = (.ok executable, compiled) ∧
        (((executeSegments executable "page" pieces ⟨0⟩ none).eval compiled).2.sinks.get
          ⟨0⟩).text = "A" ∧
        (((execute executable ⟨0⟩).eval compiled).2.sinks.get ⟨0⟩).text = "") ∧
    ((∀ registry, sharingHost.MiniRegistry registry) ∧
      (∀ registry, ∀ first ∈ sharingHost.registries.get registry,
        ∀ second ∈ sharingHost.registries.get registry,
        ∀ tag ∈ (sharingHost.profile first).tags, tag ∈ (sharingHost.profile second).tags →
          first = second) ∧
      (splitDocument sourcedScriptlets including).eval sharingHost =
        (.ok includingSegments, sharingHost) ∧
      (∀ segment ∈ includingSegments, segment.Standalone) ∧
      ∃ pieces executable compiled,
        (compileSegments sourcedScriptlets including true includingSegments).eval sharingHost =
          (.ok pieces, sharingHost) ∧
        (newExecutable sourcedScriptlets including).eval sharingHost =
          (.ok executable, compiled) ∧
        (((executeSegments executable "m.x" pieces ⟨0⟩ none).eval compiled).2.sinks.get
          ⟨0⟩).text = "" ∧
        (((execute executable ⟨0⟩).eval compiled).2.sinks.get ⟨0⟩).text = "1") := by
  constructor
  · obtain ⟨apart, joined⟩ := written_commented
    exact ⟨speaksMini_narrowHost, splitDocument_commented, standalone_commentedSegments,
      [.literal "A" ⟨1, 1⟩, .literal "B" ⟨1, 11⟩], ⟨0⟩, narrowCompiled, rfl,
      newExecutable_commented, apart, joined⟩
  · obtain ⟨apart, joined⟩ := written_including
    obtain ⟨mini, tagsApart⟩ := tagsApart_sharingHost
    exact ⟨mini, tagsApart, splitDocument_including, standalone_includingSegments,
      includingPieces, ⟨0⟩, sharingCompiled, rfl, newExecutable_including, apart, joined⟩

end DocumentHost
