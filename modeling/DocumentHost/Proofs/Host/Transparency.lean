import DocumentHost.Proofs.Descriptor.OnePerName
import DocumentHost.Proofs.Host.Mirroring
import DocumentHost.Proofs.Options.Key

/-!
# Stores are transparent

A document is compiled and run on a new context, over and over, while files are rewritten in
between.  What each of these runs shows is what it would show if nothing had been read or
compiled before.
-/

namespace DocumentHost

open World

/-- What a run of a document shows. -/
structure Showing where
  outcome : Except ExecutionError Unit
  output : String
  errorOutput : String
  attributes : NameTable Json
  globals : NameTable Json

/-- What a run in a context shows that has ended with an outcome. -/
def World.showing (world : World) (context : ContextId) (outcome : Except ExecutionError Unit) :
    Showing where
  outcome
  output := (world.sinks.get (world.contexts.get context).output).text
  errorOutput := (world.sinks.get (world.contexts.get context).errorOutput).text
  attributes := (world.contexts.get context).attributes
  globals := world.globals

/-- Take a document from the source, compile it, and run it in a context. -/
def runNamed (setting : Setting) (name : String) (context : ContextId) :
    HostM ExecutionError Unit := do
  let executable ← (obtainExecutable setting name).convert ExecutionError.ofParsing
  keeping { executables := [executable] } (execute executable context)

/-- Compile a document and run it on a new context that writes to sinks of its own. -/
def showNamed {ε : Type} (setting : Setting) (name : String) (output errorOutput : Sink) :
    HostM ε Showing := do
  let output ← newSink output
  let errorOutput ← newSink errorOutput
  let context ← newContext output errorOutput
  keeping { contexts := [context] } do
    let outcome ← (runNamed setting name context).attempt
    return (← get).showing context outcome

namespace World

/-- A state with a new context that writes to sinks of its own. -/
def withContext (world : World) (output errorOutput : Sink) : World :=
  let (outputId, sinks) := world.sinks.add output
  let (errorId, sinks) := sinks.add errorOutput
  { world with
    sinks
    contexts := (world.contexts.add { output := outputId, errorOutput := errorId }).2 }

/-- The identity of the next context. -/
def nextContext (world : World) : ContextId :=
  ⟨world.contexts.size⟩

/-- The same host with a new source over the same files, of which nothing has been read. -/
def renewed (world : World) : World :=
  { world with
    source := world.source.map Source.emptied
    descriptors := {}
    holdings := { world.holdings with descriptors := [] } }

theorem nextContext_renewed (world : World) : world.renewed.nextContext = world.nextContext :=
  rfl

/-- The state in which a document is run that writes to sinks of its own. -/
def ready (world : World) (output errorOutput : Sink) : World :=
  (world.withContext output errorOutput).holdingMore { contexts := [world.nextContext] }

variable {ε : Type} {world : World}

theorem eval_newSink (sink : Sink) (world : World) :
    (newSink sink : HostM ε SinkId).eval world =
      (.ok (world.sinks.add sink).1, { world with sinks := (world.sinks.add sink).2 }) :=
  rfl

theorem eval_newContext (output errorOutput : SinkId) (world : World) :
    (newContext output errorOutput : HostM ε ContextId).eval world =
      (.ok world.nextContext,
        { world with contexts := (world.contexts.add { output, errorOutput }).2 }) :=
  rfl

theorem eval_showNamed (setting : Setting) (name : String) (output errorOutput : Sink)
    (world : World) :
    (showNamed setting name output errorOutput : HostM ε Showing).eval world =
      let result := (runNamed setting name world.nextContext).eval (world.ready output errorOutput)
      (.ok (result.2.showing world.nextContext result.1),
        { result.2 with holdings := world.holdings }.releaseUnheld) := by
  rw [showNamed, HostM.eval_bind_of_ok (eval_newSink ..), HostM.eval_bind_of_ok (eval_newSink ..),
    HostM.eval_bind_of_ok (eval_newContext ..), HostM.eval_keeping]
  rfl

end World

namespace Arrangement

variable {arrangement : Arrangement} {world : World} {options : CompileOptions}
  {context : ContextId}

/-- One set of options, and the one for what its documents include, are told apart by their
keys. -/
theorem Strict.of_options (recheck : arrangement.settings.recheck = true)
    (always : arrangement.settings.minCheckInterval = 0)
    (only : ∀ other, arrangement.allowed other ↔ other = options ∨ other = options.forIncludes) :
    arrangement.Strict where
  recheck := recheck
  always := always
  includes := by
    intro other isAllowed
    rw [only] at isAllowed ⊢
    rcases isAllowed with rfl | rfl <;> exact .inr rfl
  apart := by
    intro first second firstAllowed secondAllowed same
    rw [only] at firstAllowed secondAllowed
    rcases firstAllowed with rfl | rfl <;> rcases secondAllowed with rfl | rfl
    · rfl
    · exact (CompileOptions.forIncludes_eq_of_compileKey_eq same.symm).symm
    · exact CompileOptions.forIncludes_eq_of_compileKey_eq same
    · rfl

/-- Runs of the document of a name agree in two hosts that mirror each other. -/
theorem Mirrors.runNamed_agree (strict : arrangement.Strict)
    (isAllowed : arrangement.allowed options) (name : String) :
    AgreeUnless (arrangement.Mirrors context []) arrangement.Overfull
      (runNamed (arrangement.setting options) name context)
      (runNamed (arrangement.setting options) name context) := by
  have lockstep := Mirrors.lockstep strict context
  intro world other mirrors
  rcases mirrors.obtain strict isAllowed name with
    ⟨found, otherFound, behind, otherBehind, obtained, otherObtained, related⟩ |
    ⟨error, behind, otherBehind, failed, otherFailed, related⟩ | excused | excused
  · refine .bind_of_ok (HostM.eval_convert_of_ok obtained)
      (HostM.eval_convert_of_ok otherObtained) ?_
    have known : (found, otherFound) ∈ [(found, otherFound)] := by simp
    refine AgreeUnlessFrom.mono (Mirrors.keeping_agree _ _ ?_ behind otherBehind related)
      fun _ _ => lockstep.weaken
    exact lockstep.executeWith_agree known fun program asks => lockstep.runFor_agree known asks
  · exact .bind_of_error (HostM.eval_convert_of_error failed)
      (HostM.eval_convert_of_error otherFailed) related
  · exact .inr (.inl ((excused.convert _).bind _))
  · exact .inr (.inr ((excused.convert _).bind _))

theorem Serves.renewed (serves : arrangement.Serves world) : arrangement.Serves world.renewed := by
  have kind : world.renewed.source.map Source.kind = world.source.map Source.kind := by
    change (world.source.map Source.emptied).map Source.kind = _
    rw [Option.map_map]
    rfl
  have nothing (id : DescriptorId) : world.renewed.descriptors.get id = default := rfl
  have adapters : SameAdapters world world.renewed := ⟨rfl, rfl⟩
  refine ⟨⟨kind.trans serves.stocks.kind, adapters.univocal serves.stocks.univocal,
    adapters.miniRegistry serves.stocks.mini, serves.stocks.plain, nofun,
    fun id key executable slot => ?_⟩, ?_⟩
  · rw [nothing] at slot
    cases slot
  · apply Unused.tended
    refine ⟨?_, ?_, rfl⟩
    · change (world.source.map Source.emptied).isSome = true
      rw [Option.isSome_map]
      exact serves.tended.sourced
    · change (world.source.map Source.emptied).elim [] _ = []
      cases world.source <;> rfl

theorem Serves.ready (serves : arrangement.Serves world) (output errorOutput : Sink) :
    arrangement.Attends world.nextContext (world.ready output errorOutput) where
  serves := serves.elsewhere ⟨_, _, _, _, _, _, _, rfl⟩
  held := List.mem_append_left _ (List.mem_singleton.2 rfl)
  known := Arena.known_add ..

/-- A run begins alike in a host and in one with a new source. -/
theorem Serves.mirrors_renewed (serves : arrangement.Serves world) (output errorOutput : Sink) :
    arrangement.Mirrors world.nextContext [] (world.ready output errorOutput)
      (world.renewed.ready output errorOutput) where
  first := serves.ready output errorOutput
  second := serves.renewed.ready output errorOutput
  peers := by
    refine ⟨⟨rfl, rfl⟩, rfl, rfl, rfl, rfl, ?_⟩
    change (world.source.map Source.emptied).map Source.emptied = world.source.map Source.emptied
    rw [Option.map_map]
    rfl
  context := rfl
  pairs := nofun

theorem Mirrors.showing_eq {other : World} (mirrors : arrangement.Mirrors context [] world other)
    (outcome : Except ExecutionError Unit) :
    other.showing context outcome = world.showing context outcome := by
  rw [World.showing, World.showing, mirrors.context, mirrors.peers.sinks, mirrors.peers.globals]

theorem PlainFiles.put {files : FileTree} (plain : arrangement.PlainFiles files)
    {place : List String} {bytes : List UInt8} {modified : Instant}
    (plainBytes : ∀ text, Text.decode? bytes = some text → arrangement.Plain text) :
    arrangement.PlainFiles (files.put place (.file bytes modified)) := by
  intro other found date text held decoded
  by_cases here : other = place
  · rw [here, FileTree.find?_put_self] at held
    cases held
    exact plainBytes text decoded
  · rw [FileTree.find?_put_of_ne _ _ here] at held
    exact plain other found date text held decoded

/-- Nothing but files has changed, and those have been rewritten. -/
theorem Serves.rewrite (serves : arrangement.Serves world) {files : FileTree}
    (rewritten : world.files.Rewritten files)
    (plain : arrangement.PlainFiles files) :
    arrangement.Serves { world with files } := by
  have adapters : SameAdapters world { world with files } := ⟨rfl, rfl⟩
  have tends : Tends (fun _ => True) world [] { world with files } :=
    serves.tended.of_same rfl rfl
  refine ⟨⟨serves.stocks.kind, adapters.univocal serves.stocks.univocal,
    adapters.miniRegistry serves.stocks.mini, plain, fun id known => ?_,
    fun id key executable slot => ?_⟩, tends.tended⟩
  · obtain ⟨path, read⟩ := serves.stocks.read id known
    exact ⟨path, read.later (.refl _ _) rewritten rfl (Int.le_refl _)⟩
  · obtain ⟨options, isAllowed, sameKey, segments, compiles, made, form⟩ :=
      serves.stocks.forms id key executable slot
    exact ⟨options, isAllowed, sameKey, segments, compiles.of_same adapters, made, form.known,
      form.documentName, form.partition, form.setting, form.segments⟩

theorem Serves.pass (serves : arrangement.Serves world) (milliseconds : Nat) :
    arrangement.Serves (world.pass milliseconds) := by
  have beside : Beside default world (world.pass milliseconds) := by
    refine .of_documents rfl ?_
    dsimp only [Instant.plusMilliseconds]
    omega
  have tends : Tends (fun _ => True) world [] (world.pass milliseconds) :=
    serves.tended.of_same rfl rfl
  exact ⟨serves.stocks.of_same beside.ages rfl, tends.tended⟩

/-- By a look at a run beside itself. -/
theorem Serves.showNamed {ε : Type} (serves : arrangement.Serves world)
    (strict : arrangement.Strict) (isAllowed : arrangement.allowed options) (name : String)
    (output errorOutput : Sink) :
    arrangement.Serves ((showNamed (arrangement.setting options) name output errorOutput :
      HostM ε Showing).eval world).2 := by
  have ready := serves.ready output errorOutput
  have mirrors : arrangement.Mirrors world.nextContext [] (world.ready output errorOutput)
      (world.ready output errorOutput) :=
    ⟨ready, ready, ⟨⟨rfl, rfl⟩, rfl, rfl, rfl, rfl, rfl⟩, rfl, nofun⟩
  rw [eval_showNamed]
  have letGo {state : World} (served : arrangement.Serves state) :
      arrangement.Serves { state with holdings := world.holdings }.releaseUnheld :=
    (served.elsewhere ⟨_, _, _, _, _, _, _, rfl⟩).releaseUnheld
  rcases Mirrors.runNamed_agree strict isAllowed name _ _ mirrors with
    ⟨-, behind⟩ | ⟨-, overfull⟩ | ⟨-, overfull⟩
  · exact letGo behind.first.serves
  · exact letGo overfull.serves
  · exact letGo overfull.serves

/-- Descriptors are dropped, and what nobody holds is released. -/
theorem exists_reclaim (world : World) : ∃ descriptors : Descriptors,
    world.reclaim = { world with descriptors }.releaseUnheld ∧
      descriptors.size = world.descriptors.size ∧
      ∀ id, ∃ dropped, descriptors.get id = { world.descriptors.get id with dropped } := by
  have drops (ids : List DescriptorId) (start : World) : ∃ descriptors : Descriptors,
      ids.foldl (fun marked id => marked.modifyDescriptor id fun descriptor =>
        { descriptor with dropped := true }) start = { start with descriptors } ∧
        descriptors.size = start.descriptors.size ∧
        ∀ id, ∃ dropped, descriptors.get id = { start.descriptors.get id with dropped } := by
    induction ids generalizing start with
    | nil => exact ⟨_, rfl, rfl, fun id => ⟨_, rfl⟩⟩
    | cons first rest ih =>
        obtain ⟨descriptors, same, size, gets⟩ := ih (start.modifyDescriptor first fun descriptor =>
          { descriptor with dropped := true })
        refine ⟨descriptors, same, size.trans (Arena.size_modify ..), fun id => ?_⟩
        obtain ⟨dropped, found⟩ := gets id
        rw [found, World.modifyDescriptor, Arena.get_modify]
        split
        · rename_i here
          rw [here.1]
          exact ⟨dropped, rfl⟩
        · exact ⟨dropped, rfl⟩
  obtain ⟨descriptors, same, size, gets⟩ :=
    drops (world.descriptors.ids.filter fun id => !world.heldDescriptors.contains id) world
  exact ⟨descriptors, congrArg World.releaseUnheld same, size, gets⟩

theorem Serves.reclaim (serves : arrangement.Serves world) : arrangement.Serves world.reclaim := by
  have tends : Tends (fun _ => True) world [] world.reclaim := serves.tended.reclaim
  refine ⟨?_, tends.tended⟩
  obtain ⟨descriptors, same, size, gets⟩ := exists_reclaim world
  have beside : Beside default world { world with descriptors } :=
    .of_documents rfl (Int.le_refl _)
  have releases : Beside default { world with descriptors } world.reclaim := by
    rw [same]
    exact .releaseUnheld _
  have kept : world.reclaim.descriptors = descriptors := by
    rw [same, descriptors_releaseUnheld]
  refine serves.stocks.ages ((Beside.lasting default).trans beside releases).ages (fun id _ => ?_)
    fun id old known => ?_
  · obtain ⟨dropped, found⟩ := gets id
    rw [kept, found]
    exact ⟨⟨rfl, rfl, rfl, rfl, rfl, .inl rfl⟩, fun _ _ slot => .inl slot⟩
  · rw [kept, size] at known
    exact absurd known old

/-- What happens to a host that serves documents: a file is rewritten and its time of
modification advances, a document is compiled and run, time passes, or what is not held any
longer is let go of. -/
inductive Step (arrangement : Arrangement) : World → World → Prop
  | rewrite {world : World} {place : List String} {bytes before : List UInt8}
      {modified modifiedBefore : Instant}
      (found : world.files.find? place = some (.file before modifiedBefore))
      (later : modifiedBefore.nanoseconds < modified.nanoseconds)
      (plain : ∀ text, Text.decode? bytes = some text → arrangement.Plain text) :
      Step arrangement world { world with files := world.files.put place (.file bytes modified) }
  | run {world : World} {options : CompileOptions} (isAllowed : arrangement.allowed options)
      (name : String) (output errorOutput : Sink) :
      Step arrangement world ((DocumentHost.showNamed (arrangement.setting options) name output
        errorOutput : HostM Empty Showing).eval world).2
  | pass {world : World} (milliseconds : Nat) : Step arrangement world (world.pass milliseconds)
  | letGo {world : World} (holdings : Holdings) :
      Step arrangement world { world with holdings }.reclaim

/-- Every step leaves a host that serves documents. -/
theorem Serves.step {after : World} (serves : arrangement.Serves world)
    (strict : arrangement.Strict) (step : arrangement.Step world after) :
    arrangement.Serves after := by
  cases step with
  | rewrite found later plain =>
      exact serves.rewrite (FileTree.rewritten_put found later) (serves.stocks.plain.put plain)
  | run isAllowed name output errorOutput =>
      exact serves.showNamed strict isAllowed name output errorOutput
  | pass milliseconds => exact serves.pass milliseconds
  | letGo holdings =>
      exact (serves.elsewhere ⟨_, _, _, _, _, _, _, rfl⟩ :
        arrangement.Serves { world with holdings }).reclaim

/-- A host at the beginning: nothing has been read from the files, adapters are Mini adapters
with tags and extensions of their own, and no document has in-flow code. -/
structure Begins (arrangement : Arrangement) (world : World) : Prop where
  kind : world.source.map Source.kind = some (.files arrangement.settings)
  unused : world.Unused
  univocal : world.Univocal arrangement.registry
  mini : world.MiniRegistry arrangement.registry
  plain : arrangement.PlainFiles world.files

theorem Begins.serves (begins : arrangement.Begins world) : arrangement.Serves world where
  stocks :=
    { kind := begins.kind
      univocal := begins.univocal
      mini := begins.mini
      plain := begins.plain
      read := fun id known => by
        rw [begins.unused.descriptors] at known
        exact absurd known (Nat.not_lt_zero _)
      forms := fun id key executable slot => by
        rw [Arena.get_of_unknown] at slot
        · cases slot
        · rw [begins.unused.descriptors]
          exact Nat.not_lt_zero _ }
  tended := begins.unused.tended

/-- By induction on the steps. -/
theorem Begins.serves_after {after : World} (begins : arrangement.Begins world)
    (strict : arrangement.Strict) (steps : Relation.ReflTransGen arrangement.Step world after) :
    arrangement.Serves after := by
  induction steps with
  | refl => exact begins.serves
  | tail _ step ih => exact ih.step strict step

end Arrangement

/-- Whatever has been read, compiled, rewritten and run before: what a run of a document shows
is what it shows with a new source over the same files, provided that neither source comes to
keep more descriptors than a chain of dependencies may have. -/
theorem showNamed_eq_renewed {arrangement : Arrangement} (strict : arrangement.Strict)
    {start world : World} (begins : arrangement.Begins start)
    (steps : Relation.ReflTransGen arrangement.Step start world) {options : CompileOptions}
    (isAllowed : arrangement.allowed options) (name : String) (output errorOutput : Sink)
    (few : ((showNamed (arrangement.setting options) name output errorOutput :
      HostM Empty Showing).eval world).2.documentEntries.length ≤ dependencyLimit)
    (fewAnew : ((showNamed (arrangement.setting options) name output errorOutput :
      HostM Empty Showing).eval world.renewed).2.documentEntries.length ≤ dependencyLimit) :
    ((showNamed (arrangement.setting options) name output errorOutput :
        HostM Empty Showing).eval world).1 =
      ((showNamed (arrangement.setting options) name output errorOutput :
        HostM Empty Showing).eval world.renewed).1 := by
  have serves := begins.serves_after strict steps
  have mirrors := serves.mirrors_renewed output errorOutput
  rw [eval_showNamed] at few fewAnew ⊢
  rw [eval_showNamed]
  have roomy {state : World} (overfull : arrangement.Overfull state) {holdings : Holdings}
      (few : ({ state with holdings }.releaseUnheld).documentEntries.length ≤ dependencyLimit) :
      False :=
    Nat.not_lt_of_le few (overfull.letGo holdings).crowded
  rcases Arrangement.Mirrors.runNamed_agree strict isAllowed name _ _ mirrors with
    ⟨same, behind⟩ | ⟨-, overfull⟩ | ⟨-, overfull⟩
  · dsimp only
    rw [nextContext_renewed, behind.showing_eq, same]
  · exact (roomy overfull few).elim
  · exact (roomy overfull fewAnew).elim

section Page

/-- Documents of one literal text, from a source of files. -/
def pages : Arrangement where
  settings := { basePath := "", minCheckInterval := 0 }
  registry := ⟨0⟩
  allowed options := options = { parser := textParser, includeParser := textParser }

def pageSetting : Setting :=
  pages.setting { parser := textParser, includeParser := textParser }

/-- A tree with one file. -/
def pageFiles (byte : UInt8) (modified : Instant) : FileTree where
  working := []
  entries := [(["p"], .file [byte] modified)]

/-- A host with one Mini adapter and one file, of which nothing has been read. -/
def pageHost : World where
  toLanguages := .of [⟨Mini.adapter (.ofTag "Mini" "mini"), true⟩] [[⟨0⟩]]
  source := some (.ofFiles pages.settings)
  files := pageFiles 104 ⟨0⟩

theorem strict_pages : pages.Strict :=
  .of_options rfl rfl fun _ => or_self_iff.symm

theorem plain_pages (text : String) : pages.Plain text := by
  intro options isAllowed parser
  cases isAllowed
  exact absurd parser (by decide)

theorem begins_pageHost : pages.Begins pageHost where
  kind := rfl
  unused := ⟨rfl, rfl, rfl⟩
  univocal := by
    have only (id : AdapterId) (member : id ∈ pageHost.registries.get pages.registry) : id = ⟨0⟩ :=
      List.mem_singleton.1 member
    constructor
    · intro first isFirst second isSecond _ _ _
      rw [only first isFirst, only second isSecond]
    · intro first isFirst second isSecond _ _ _
      rw [only first isFirst, only second isSecond]
  mini := by
    intro id member
    obtain rfl : id = ⟨0⟩ := List.mem_singleton.1 member
    exact ⟨_, rfl⟩
  plain := fun _ _ _ text _ _ => plain_pages text

/-- The file behind the page as it was read first. -/
def firstBacking : Backing where
  path := "p"
  modified := ⟨0⟩
  policy := ⟨true, 0⟩
  lastChecked := ⟨0⟩

/-- The document is read from its file. -/
theorem eval_readDocument_page {world : World} {byte : UInt8} {modified : Instant} {text : String}
    (tree : world.files = pageFiles byte modified) (decoded : Text.decode? [byte] = some text) :
    (readDocument pages.settings "p").eval world =
      let (id, after) := world.tick.addDescriptor
        { name := "p"
          partition := world.sourceIdentifier
          tag := ""
          text
          timestamp := modified
          backing := some { firstBacking with modified, lastChecked := world.clock } }
      (.ok id, after) := by
  have resolved : resolve? pages.settings (pageFiles byte modified) "p" = some "p" := by cbv
  have dated : (pageFiles byte modified).modified "p" = .ok modified := by cbv
  have bytes : (pageFiles byte modified).read "p" = .ok [byte] := by cbv
  have read : (pageFiles byte modified).readText "p" = .ok text := by
    rw [FileTree.readText, bytes]
    simp only [Bind.bind, Except.bind, decoded]
    rfl
  have tagless : Path.extension? "p" = none := by cbv
  rw [readDocument, HostM.eval_bind_of_ok (HostM.eval_get _), tree, resolved]
  dsimp only
  rw [dated, read, tagless]
  rfl

/-- The descriptor of the page, as it is when the page has been compiled. -/
def firstDescriptor : Descriptor where
  name := "p"
  partition := ""
  tag := ""
  text := "h"
  timestamp := ⟨0⟩
  slots := NameTable.insert {} pageSetting.options.compileKey ⟨0⟩
  backing := some firstBacking

/-- The host when the page has been run and its file rewritten. -/
def pageRewritten : World :=
  { pageHost with
    executables := ⟨[
      { documentName := "p", partition := "", timestamp := ⟨0⟩, setting := pageSetting,
        segments := [.literal "h" .start], lastUsed := ⟨2000⟩ }]⟩
    contexts := ⟨[{ output := ⟨0⟩, errorOutput := ⟨1⟩, released := true, releasing := true }]⟩
    sinks := ⟨[{ text := "h" }, {}]⟩
    descriptors := ⟨[firstDescriptor]⟩
    source := some { Source.ofFiles pages.settings with documents := ⟨[("p", ⟨0⟩)]⟩ }
    files := pageFiles 105 ⟨1⟩
    clock := ⟨3000⟩ }

theorem eval_fetchDocument_page :
    (fetchDocument "p").eval (pageHost.ready {} {}) =
      (.ok ⟨0⟩, { (pageHost.ready {} {}).tick with
        source := some { Source.ofFiles pages.settings with documents := ⟨[("p", ⟨0⟩)]⟩ }
        descriptors := ⟨[{ firstDescriptor with slots := {} }]⟩ }) := by
  have kind : (pageHost.ready {} {}).source.map Source.kind = some (.files pages.settings) := rfl
  have decoded : Text.decode? [104] = some "h" := by cbv
  rw [eval_fetchDocument_of_absent rfl, kind, eval_reloadDocument_of_files,
    eval_readDocument_page rfl decoded]
  rfl

theorem eval_obtainExecutable_page :
    (obtainExecutable pageSetting "p").eval (pageHost.ready {} {}) =
      (.ok ⟨0⟩, { (pageHost.ready {} {}) with
        clock := ⟨2000⟩
        source := some { Source.ofFiles pages.settings with documents := ⟨[("p", ⟨0⟩)]⟩ }
        descriptors := ⟨[firstDescriptor]⟩
        executables := ⟨[
          { documentName := "p", partition := "", timestamp := ⟨0⟩, setting := pageSetting,
            segments := [.literal "h" .start], lastUsed := ⟨1000⟩ }]⟩ }) := by
  rw [eval_obtainExecutable_of_fetched rfl rfl eval_fetchDocument_page]
  rfl

/-- The page is run, and then its file is rewritten. -/
theorem steps_pageRewritten :
    Relation.ReflTransGen pages.Step pageHost pageRewritten := by
  have run : ((showNamed pageSetting "p" {} {} : HostM Empty Showing).eval pageHost).2 =
      { pageRewritten with files := pageFiles 104 ⟨0⟩ } := by
    rw [eval_showNamed, runNamed,
      HostM.eval_bind_of_ok (HostM.eval_convert_of_ok eval_obtainExecutable_page)]
    rfl
  have found : ({ pageRewritten with files := pageFiles 104 ⟨0⟩ } : World).files.find? ["p"] =
      some (.file [104] ⟨0⟩) := rfl
  have later : (⟨0⟩ : Instant).nanoseconds < (⟨1⟩ : Instant).nanoseconds := by decide
  have rewrite : pages.Step { pageRewritten with files := pageFiles 104 ⟨0⟩ } pageRewritten :=
    .rewrite found later fun text (_ : Text.decode? [105] = some text) => plain_pages text
  exact .tail (.single (run ▸ .run rfl "p" {} {})) rewrite

/-- The page as it was run first is found to be out of date. -/
theorem eval_isValid_page :
    (isValid ⟨0⟩).eval (pageRewritten.ready {} {}) =
      (.ok false, { (pageRewritten.ready {} {}).tick with
        descriptors := ⟨[{ firstDescriptor with
          invalidated := true
          backing := some { firstBacking with lastChecked := ⟨3000⟩ } }]⟩ }) := by
  have dated : (pageFiles 105 ⟨1⟩).modified "p" = .ok ⟨1⟩ := by cbv
  have looked : (fileIsCurrent ⟨0⟩ firstBacking).eval (pageRewritten.ready {} {}) =
      (.ok false, { (pageRewritten.ready {} {}).tick with
        descriptors := ⟨[{ firstDescriptor with
          backing := some { firstBacking with lastChecked := ⟨3000⟩ } }]⟩ }) := by
    rw [fileIsCurrent, if_neg (by decide), HostM.eval_bind_of_ok (HostM.eval_readClock _)]
    dsimp only
    rw [if_neg (by decide), HostM.eval_bind_of_ok (HostM.eval_modify _ _),
      HostM.eval_bind_of_ok (HostM.eval_get _)]
    generalize found : FileTree.modified (World.files _) firstBacking.path = outcome
    obtain rfl : Except.ok ⟨1⟩ = outcome := dated.symm.trans found
    rfl
  have settled : (settleVisit ⟨0⟩ true [⟨0⟩]).eval (pageRewritten.ready {} {}) =
      (.ok (false, [⟨0⟩]), { (pageRewritten.ready {} {}).tick with
        descriptors := ⟨[{ firstDescriptor with
          invalidated := true
          backing := some { firstBacking with lastChecked := ⟨3000⟩ } }]⟩ }) := by
    have behind : ((pageRewritten.ready {} {}).descriptors.get ⟨0⟩).backing = some firstBacking :=
      rfl
    rw [settleVisit, if_pos rfl, HostM.eval_bind_of_ok (HostM.eval_get _), behind]
    dsimp only
    rw [HostM.eval_bind_of_ok looked]
    change (Except.ok (false, [(⟨0⟩ : DescriptorId)]), World.invalidate _ ⟨0⟩) = _
    rw [World.invalidate, Descriptors.invalidateAll, if_pos (by decide)]
    exact congrArg (fun descriptors => (Except.ok (false, [(⟨0⟩ : DescriptorId)]),
      { (pageRewritten.ready {} {}).tick with descriptors })) (Descriptors.invalidateAll.eq_1 _)
  have free : ((pageRewritten.ready {} {}).descriptors.get ⟨0⟩).dependencies = [] := rfl
  rw [eval_isValid, eval_judgeWithin_of_new rfl List.not_mem_nil, free, eval_judgeEach_nil]
  dsimp only
  rw [settled]

theorem eval_fetchDocument_pageRewritten :
    (fetchDocument "p").eval (pageRewritten.ready {} {}) =
      (.ok ⟨1⟩, { (pageRewritten.ready {} {}).tick.tick with
        source := some { Source.ofFiles pages.settings with documents := ⟨[("p", ⟨1⟩)]⟩ }
        descriptors := ⟨[
          { firstDescriptor with
            invalidated := true
            backing := some { firstBacking with lastChecked := ⟨3000⟩ } },
          { firstDescriptor with
            text := "i"
            timestamp := ⟨1⟩
            slots := {}
            backing := some { firstBacking with modified := ⟨1⟩, lastChecked := ⟨4000⟩ } }]⟩ }) := by
  have kept : (pageRewritten.ready {} {}).kept? "p" = some ⟨0⟩ := rfl
  have kind : (pageRewritten.ready {} {}).source.map Source.kind = some (.files pages.settings) :=
    rfl
  have decoded : Text.decode? [105] = some "i" := by cbv
  rw [eval_fetchDocument_of_kept kept, eval_isValid_page]
  dsimp only
  rw [kind, eval_reloadDocument_of_files, eval_readDocument_page rfl decoded]
  rfl

theorem length_documentEntries_pageRewritten :
    ((showNamed pageSetting "p" {} {} : HostM Empty Showing).eval
      pageRewritten).2.documentEntries.length = 1 := by
  have obtained : ((obtainExecutable pageSetting "p").eval (pageRewritten.ready {} {})).1 =
      .ok ⟨1⟩ := by
    rw [eval_obtainExecutable_of_fetched rfl rfl eval_fetchDocument_pageRewritten]
    rfl
  rw [eval_showNamed, runNamed,
    HostM.eval_bind_of_ok (HostM.eval_convert_of_ok (Prod.fst_eq_iff.1 obtained)),
    eval_obtainExecutable_of_fetched rfl rfl eval_fetchDocument_pageRewritten]
  rfl

theorem length_documentEntries_pageRenewed :
    ((showNamed pageSetting "p" {} {} : HostM Empty Showing).eval
      pageRewritten.renewed).2.documentEntries.length = 1 := by
  have fetched : (fetchDocument "p").eval (pageRewritten.renewed.ready {} {}) =
      (.ok ⟨0⟩, { (pageRewritten.renewed.ready {} {}).tick with
        source := some { Source.ofFiles pages.settings with documents := ⟨[("p", ⟨0⟩)]⟩ }
        descriptors := ⟨[
          { firstDescriptor with
            text := "i"
            timestamp := ⟨1⟩
            slots := {}
            backing := some { firstBacking with modified := ⟨1⟩, lastChecked := ⟨3000⟩ } }]⟩ }) := by
    have kind : (pageRewritten.renewed.ready {} {}).source.map Source.kind =
        some (.files pages.settings) := rfl
    have decoded : Text.decode? [105] = some "i" := by cbv
    rw [eval_fetchDocument_of_absent rfl, kind, eval_reloadDocument_of_files,
      eval_readDocument_page rfl decoded]
    rfl
  have obtained : ((obtainExecutable pageSetting "p").eval (pageRewritten.renewed.ready {} {})).1 =
      .ok ⟨1⟩ := by
    rw [eval_obtainExecutable_of_fetched rfl rfl fetched]
    rfl
  rw [eval_showNamed, runNamed,
    HostM.eval_bind_of_ok (HostM.eval_convert_of_ok (Prod.fst_eq_iff.1 obtained)),
    eval_obtainExecutable_of_fetched rfl rfl fetched]
  rfl

theorem showNamed_pageRewritten_eq_renewed :
    pages.Strict ∧ pages.Begins pageHost ∧
      Relation.ReflTransGen pages.Step pageHost pageRewritten ∧
      ((showNamed pageSetting "p" {} {} : HostM Empty Showing).eval pageRewritten).1 =
        ((showNamed pageSetting "p" {} {} : HostM Empty Showing).eval pageRewritten.renewed).1 :=
  ⟨strict_pages, begins_pageHost, steps_pageRewritten,
    showNamed_eq_renewed strict_pages begins_pageHost steps_pageRewritten rfl "p" {} {}
      (length_documentEntries_pageRewritten.trans_le (by decide))
      (length_documentEntries_pageRenewed.trans_le (by decide))⟩

end Page

end DocumentHost
