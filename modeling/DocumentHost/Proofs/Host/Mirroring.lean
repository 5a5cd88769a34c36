import DocumentHost.Proofs.Host.Brackets
import DocumentHost.Proofs.Host.Execution
import DocumentHost.Proofs.Host.Serving

/-!
# A run on whatever is in store

Two hosts serve documents from the same files and are alike in everything that a run can see;
they may have different documents and different compiled forms in store.  A run on a context
that is the same in both goes in lockstep, whatever it includes, unless a source keeps more
descriptors than chains may have.
-/

namespace DocumentHost

open World

variable {ε α : Type}

namespace World

/-- What a run can see is the same in two hosts, contexts apart. -/
structure Peers (world other : World) : Prop where
  adapters : SameAdapters world other
  files : other.files = world.files
  globals : other.globals = world.globals
  sinks : other.sinks = world.sinks
  depth : other.includeDepth = world.includeDepth
  source : other.source.map Source.emptied = world.source.map Source.emptied

/-- A later state in which documents, their forms and the files are as they were. -/
structure Elsewhere (world after : World) : Prop where
  rest : ∃ contexts sinks globals current holdings includeDepth journal,
    after = { world with contexts, sinks, globals, current, holdings, includeDepth, journal }

variable {context : ContextId} {world after other otherAfter : World}

theorem Elsewhere.ages (elsewhere : Elsewhere world after) : Ages world after := by
  obtain ⟨contexts, sinks, globals, current, holdings, includeDepth, journal, rest⟩ :=
    elsewhere.rest
  rw [rest]
  exact ⟨rfl, ⟨rfl, rfl⟩, rfl, Int.le_refl _, Nat.le_refl _, fun _ _ => ⟨rfl, rfl, rfl, rfl⟩⟩

/-- Documents have been worked on in both. -/
theorem Peers.beside (peers : Peers world other) (beside : Beside context world after)
    (otherBeside : Beside context other otherAfter) : Peers after otherAfter := by
  have source := beside.source
  have otherSource := otherBeside.source
  obtain ⟨_, _, _, _, _, _, rest⟩ := beside.rest
  obtain ⟨_, _, _, _, _, _, otherRest⟩ := otherBeside.rest
  rw [rest] at source ⊢
  rw [otherRest] at otherSource ⊢
  exact ⟨peers.adapters, peers.files, peers.globals, peers.sinks, peers.depth,
    otherSource.trans (peers.source.trans source.symm)⟩

theorem Peers.fileDocument_eq (peers : Peers world other) (settings : FileSettings)
    (name : String) : other.fileDocument settings name = world.fileDocument settings name :=
  fileDocument_of_same peers.files
    (Arrangement.Stocks.sourceIdentifier_of_emptied peers.source) settings name

end World

namespace Arrangement

variable {arrangement : Arrangement}

theorem Serves.elsewhere {world after : World} (serves : arrangement.Serves world)
    (elsewhere : Elsewhere world after) : arrangement.Serves after := by
  have ages := elsewhere.ages
  obtain ⟨contexts, sinks, globals, current, holdings, includeDepth, journal, rest⟩ :=
    elsewhere.rest
  have tends : Tends (fun _ => True) world [] after := by
    rw [rest]
    exact serves.tended.of_same rfl rfl
  refine ⟨serves.stocks.of_same ages ?_, tends.tended⟩
  rw [rest]

theorem Serves.releaseUnheld {world : World} (serves : arrangement.Serves world) :
    arrangement.Serves world.releaseUnheld := by
  rw [(ReleasesOnly.releaseUnheld world).rest]
  exact serves.elsewhere ⟨_, _, _, _, _, _, _, rfl⟩

/-- A host that serves documents, with a context that is held. -/
structure Attends (arrangement : Arrangement) (context : ContextId) (world : World) : Prop where
  serves : arrangement.Serves world
  held : context ∈ world.holdings.contexts
  known : context.index < world.contexts.size

/-- Two hosts that serve documents and look alike, and pairs of executables that have been
compiled from the same documents. -/
structure Mirrors (arrangement : Arrangement) (context : ContextId)
    (pairs : List (ExecutableId × ExecutableId)) (world other : World) : Prop where
  first : arrangement.Attends context world
  second : arrangement.Attends context other
  peers : Peers world other
  context : other.contexts.get context = world.contexts.get context
  pairs : ∀ pair ∈ pairs, ∃ options document, arrangement.allowed options ∧
    Compiled arrangement world pair.1 options document ∧
    Compiled arrangement other pair.2 options document

variable {context : ContextId} {pairs : List (ExecutableId × ExecutableId)}
  {world other after otherAfter : World}

theorem Attends.beside (attends : arrangement.Attends context world)
    (beside : Beside context world after) (serves : arrangement.Serves after) :
    arrangement.Attends context after := by
  have size := beside.size
  obtain ⟨_, _, _, _, _, _, rest⟩ := beside.rest
  refine ⟨serves, ?_, ?_⟩
  · rw [rest]
    exact attends.held
  · rw [size]
    exact attends.known

/-- A host that serves documents, and whose source is crowded. -/
structure Overfull (arrangement : Arrangement) (world : World) : Prop where
  serves : arrangement.Serves world
  crowded : Crowded world

theorem Overfull.elsewhere (overfull : arrangement.Overfull world)
    (elsewhere : Elsewhere world after) (source : after.source = world.source) :
    arrangement.Overfull after := by
  refine ⟨overfull.serves.elsewhere elsewhere, ?_⟩
  rw [Crowded, documentEntries_of_source source]
  exact overfull.crowded

theorem Overfull.letGo (overfull : arrangement.Overfull world) (holdings : Holdings) :
    arrangement.Overfull { world with holdings }.releaseUnheld := by
  have holds : arrangement.Overfull { world with holdings } :=
    overfull.elsewhere ⟨_, _, _, _, _, _, _, rfl⟩ rfl
  refine ⟨holds.serves.releaseUnheld, ?_⟩
  rw [Crowded, documentEntries_of_source (Aside.releaseUnheld _).source]
  exact holds.crowded

namespace Mirrors

theorem ages (mirrors : arrangement.Mirrors context pairs world other)
    (ages : Ages world after) (otherAges : Ages other otherAfter)
    (first : arrangement.Attends context after) (second : arrangement.Attends context otherAfter)
    (peers : Peers after otherAfter)
    (same : otherAfter.contexts.get context = after.contexts.get context) :
    arrangement.Mirrors context pairs after otherAfter where
  first := first
  second := second
  peers := peers
  context := same
  pairs pair member := by
    obtain ⟨options, document, isAllowed, compiled, otherCompiled⟩ := mirrors.pairs pair member
    exact ⟨options, document, isAllowed, compiled.ages ages, otherCompiled.ages otherAges⟩

/-- Documents have been worked on in both. -/
theorem beside (mirrors : arrangement.Mirrors context pairs world other)
    (beside : Beside context world after) (otherBeside : Beside context other otherAfter)
    (serves : arrangement.Serves after) (otherServes : arrangement.Serves otherAfter) :
    arrangement.Mirrors context pairs after otherAfter := by
  refine mirrors.ages beside.ages otherBeside.ages (mirrors.first.beside beside serves)
    (mirrors.second.beside otherBeside otherServes) (mirrors.peers.beside beside otherBeside) ?_
  rw [beside.spares mirrors.first.held, otherBeside.spares mirrors.second.held, mirrors.context]

/-- Neither documents nor their forms have been touched in both. -/
theorem elsewhere (mirrors : arrangement.Mirrors context pairs world other)
    (elsewhere : Elsewhere world after) (otherElsewhere : Elsewhere other otherAfter)
    (held : context ∈ after.holdings.contexts) (otherHeld : context ∈ otherAfter.holdings.contexts)
    (size : after.contexts.size = world.contexts.size)
    (otherSize : otherAfter.contexts.size = other.contexts.size)
    (peers : Peers after otherAfter)
    (same : otherAfter.contexts.get context = after.contexts.get context) :
    arrangement.Mirrors context pairs after otherAfter := by
  refine mirrors.ages elsewhere.ages otherElsewhere.ages
    ⟨mirrors.first.serves.elsewhere elsewhere, held, ?_⟩
    ⟨mirrors.second.serves.elsewhere otherElsewhere, otherHeld, ?_⟩ peers same
  · rw [size]
    exact mirrors.first.known
  · rw [otherSize]
    exact mirrors.second.known

theorem setDepth (mirrors : arrangement.Mirrors context pairs world other) (includeDepth : Nat) :
    arrangement.Mirrors context pairs { world with includeDepth } { other with includeDepth } :=
  mirrors.elsewhere ⟨_, _, _, _, _, _, _, rfl⟩ ⟨_, _, _, _, _, _, _, rfl⟩ mirrors.first.held
    mirrors.second.held rfl rfl { mirrors.peers with depth := rfl } mirrors.context

theorem setSinks (mirrors : arrangement.Mirrors context pairs world other)
    (sinks : Arena .sink Sink) :
    arrangement.Mirrors context pairs { world with sinks } { other with sinks } :=
  mirrors.elsewhere ⟨_, _, _, _, _, _, _, rfl⟩ ⟨_, _, _, _, _, _, _, rfl⟩ mirrors.first.held
    mirrors.second.held rfl rfl { mirrors.peers with sinks := rfl } mirrors.context

theorem setGlobals (mirrors : arrangement.Mirrors context pairs world other)
    (globals : NameTable Json) :
    arrangement.Mirrors context pairs { world with globals } { other with globals } :=
  mirrors.elsewhere ⟨_, _, _, _, _, _, _, rfl⟩ ⟨_, _, _, _, _, _, _, rfl⟩ mirrors.first.held
    mirrors.second.held rfl rfl { mirrors.peers with globals := rfl } mirrors.context

theorem setContext (mirrors : arrangement.Mirrors context pairs world other) (changed : Context) :
    arrangement.Mirrors context pairs (world.modifyContext context fun _ => changed)
      (other.modifyContext context fun _ => changed) := by
  refine mirrors.elsewhere ⟨_, _, _, _, _, _, _, rfl⟩ ⟨_, _, _, _, _, _, _, rfl⟩ mirrors.first.held
    mirrors.second.held (Arena.size_modify ..) (Arena.size_modify ..)
    { mirrors.peers with } ?_
  rw [World.modifyContext, World.modifyContext, Arena.get_modify_self _ _ mirrors.first.known,
    Arena.get_modify_self _ _ mirrors.second.known]

theorem hold (mirrors : arrangement.Mirrors context pairs world other)
    (current otherCurrent : Option ContextId) {holdings otherHoldings : Holdings}
    (held : context ∈ holdings.contexts) (otherHeld : context ∈ otherHoldings.contexts) :
    arrangement.Mirrors context pairs { world with current, holdings }
      { other with current := otherCurrent, holdings := otherHoldings } :=
  mirrors.elsewhere ⟨_, _, _, _, _, _, _, rfl⟩ ⟨_, _, _, _, _, _, _, rfl⟩ held otherHeld rfl rfl
    { mirrors.peers with } mirrors.context

theorem tick (mirrors : arrangement.Mirrors context pairs world other) :
    arrangement.Mirrors context pairs world.tick other.tick :=
  mirrors.beside (.tick world) (.tick other) mirrors.first.serves.tick
    mirrors.second.serves.tick

theorem releaseUnheld (mirrors : arrangement.Mirrors context pairs world other) :
    arrangement.Mirrors context pairs world.releaseUnheld other.releaseUnheld :=
  mirrors.beside (.releaseUnheld world) (.releaseUnheld other)
    mirrors.first.serves.releaseUnheld mirrors.second.serves.releaseUnheld

/-! ## Operations -/

theorem onContext_agree (operation : Context → Except ContextError (α × Context)) :
    Agree (arrangement.Mirrors context pairs) (onContext context operation)
      (onContext context operation) := by
  intro world other mirrors
  rw [AgreeFrom, HostM.eval_onContext, HostM.eval_onContext, mirrors.context]
  cases operation (world.contexts.get context) with
  | error error => exact ⟨rfl, mirrors⟩
  | ok result => exact ⟨rfl, mirrors.setContext result.2⟩

theorem writeText_agree (stream : Stream) (text : String) :
    Agree (arrangement.Mirrors context pairs) (writeText context stream text)
      (writeText context stream text) := by
  refine .get fun world other mirrors => ?_
  dsimp only
  rw [mirrors.context, mirrors.peers.sinks]
  cases (world.contexts.get context).ensureOpen with
  | error error => exact .throw mirrors _
  | ok _ =>
      cases (world.sinks.get ((world.contexts.get context).sink stream)).write text with
      | error reason => exact ⟨rfl, mirrors⟩
      | ok written => exact ⟨rfl, mirrors.setSinks _⟩

theorem noteUse_agree {first second : ExecutableId} :
    Agree (arrangement.Mirrors context pairs) (noteUse first : HostM ε Unit) (noteUse second) := by
  intro world other mirrors
  have uses (state : World) (id : ExecutableId) (now : Instant) :
      Ages state (state.modifyExecutable id fun used => { used with lastUsed := now }) := by
    refine ⟨rfl, ⟨rfl, rfl⟩, rfl, Int.le_refl _, ?_, fun other _ => ?_⟩
    · exact Nat.le_of_eq (Arena.size_modify ..).symm
    · exact Arena.related_modify SameProgram .refl state.executables id ⟨rfl, rfl, rfl, rfl⟩ other
  have attends (state : World) (id : ExecutableId) (now : Instant)
      (attends : arrangement.Attends context state) : arrangement.Attends context
        (state.modifyExecutable id fun used => { used with lastUsed := now }) := by
    have tends : Tends (fun _ => True) state []
        (state.modifyExecutable id fun used => { used with lastUsed := now }) :=
      attends.serves.tended.of_same rfl rfl
    exact ⟨⟨attends.serves.stocks.of_same (uses state id now) rfl, tends.tended⟩, attends.held,
      attends.known⟩
  refine ⟨rfl, ?_⟩
  exact mirrors.tick.ages (uses _ _ _) (uses _ _ _) (attends _ _ _ mirrors.tick.first)
    (attends _ _ _ mirrors.tick.second) { mirrors.tick.peers with } mirrors.tick.context

theorem withCurrent_agree {first second : HostM ε α}
    (agree : AgreeUnless (arrangement.Mirrors context pairs) arrangement.Overfull first second) :
    AgreeUnless (arrangement.Mirrors context pairs) arrangement.Overfull (withCurrent context first)
      (withCurrent context second) := by
  intro world other mirrors
  have inside : arrangement.Mirrors context pairs (world.entering context)
      (other.entering context) :=
    mirrors.hold _ _ (List.mem_append_right _ mirrors.first.held)
      (List.mem_append_right _ mirrors.second.held)
  rw [AgreeUnlessFrom, AgreeFrom, HostM.eval_withCurrent, HostM.eval_withCurrent]
  rcases agree _ _ inside with ⟨same, behind⟩ | excused | excused
  · exact .inl ⟨same, behind.hold _ _ mirrors.first.held mirrors.second.held⟩
  · exact .inr (.inl ⟨excused.1, excused.2.elsewhere ⟨_, _, _, _, _, _, _, rfl⟩ rfl⟩)
  · exact .inr (.inr ⟨excused.1, excused.2.elsewhere ⟨_, _, _, _, _, _, _, rfl⟩ rfl⟩)

theorem keeping_agree (more otherMore : Holdings) {first second : HostM ε α}
    (agree : AgreeUnless (arrangement.Mirrors context pairs) arrangement.Overfull first second) :
    AgreeUnless (arrangement.Mirrors context pairs) arrangement.Overfull (keeping more first)
      (keeping otherMore second) := by
  intro world other mirrors
  have inside : arrangement.Mirrors context pairs (world.holdingMore more)
      (other.holdingMore otherMore) :=
    mirrors.hold _ _ (List.mem_append_right _ mirrors.first.held)
      (List.mem_append_right _ mirrors.second.held)
  rw [AgreeUnlessFrom, AgreeFrom, HostM.eval_keeping, HostM.eval_keeping]
  rcases agree _ _ inside with ⟨same, behind⟩ | ⟨failed, excuse⟩ | ⟨failed, excuse⟩
  · exact .inl ⟨same, (behind.hold _ _ mirrors.first.held mirrors.second.held).releaseUnheld⟩
  · exact .inr (.inl ⟨failed, excuse.letGo _⟩)
  · exact .inr (.inr ⟨failed, excuse.letGo _⟩)

end Mirrors

/-! ## Documents -/

/-- A host that serves documents does so later, when only documents have been worked on. -/
def Maintains (arrangement : Arrangement) (world after : World) : Prop :=
  arrangement.Serves world → arrangement.Serves after ∧ ∀ context, Beside context world after

theorem Maintains.lasting : Lasting arrangement.Maintains where
  refl world serves := ⟨serves, fun context => (Beside.lasting context).refl world⟩
  trans first second serves := by
    obtain ⟨between, beside⟩ := first serves
    obtain ⟨after, further⟩ := second between
    exact ⟨after, fun context => (Beside.lasting context).trans (beside context) (further context)⟩

theorem maintains_recordDependency (strict : arrangement.Strict) (document : Executable)
    (name : String) : (recordDependency document name).Keeps arrangement.Maintains := by
  refine Maintains.lasting.recordDependency (fun name world serves => ?_)
    (fun world id dependency serves => ?_) document name
  · exact ⟨(serves.fetch strict name).1, fun context =>
      (Beside.documenting context).fetchDocument name world⟩
  · have tends : Tends (fun _ => True) world [] (world.linkDependency id dependency) :=
      serves.tended.linkDependency id dependency
    exact ⟨⟨serves.stocks.linkDependency id dependency, tends.tended⟩, fun context =>
      .modifyDescriptor world id _⟩

/-- Dependencies that cannot be recorded are passed over. -/
theorem eval_recordDependency (document : Executable) (name : String) (world : World) :
    ((recordDependency document name).eval world).1 = .ok () := by
  rw [recordDependency, HostM.eval_bind_of_ok (HostM.eval_get _)]
  split
  · rw [HostM.eval_bind_of_ok (HostM.eval_attempt _ _)]
    cases ((fetchDocument document.documentName).eval world).1 with
    | error error => rfl
    | ok includer =>
        dsimp only
        rw [HostM.eval_bind_of_ok (HostM.eval_attempt _ _)]
        cases ((fetchDocument name).eval _).1 <;> rfl
  · rfl

/-- Executables of the same document are obtained, or they are missing for the same reason. -/
theorem obtain_of_peers (peers : Peers world other) (serves : arrangement.Serves world)
    (otherServes : arrangement.Serves other) (strict : arrangement.Strict)
    {options : CompileOptions} (isAllowed : arrangement.allowed options) (name : String) :
    (∃ found otherFound behind otherBehind document,
      (obtainExecutable (arrangement.setting options) name).eval world = (.ok found, behind) ∧
      (obtainExecutable (arrangement.setting options) name).eval other =
        (.ok otherFound, otherBehind) ∧
      Compiled arrangement behind found options document ∧
      Compiled arrangement otherBehind otherFound options document) ∨
    (∃ error behind otherBehind,
      (obtainExecutable (arrangement.setting options) name).eval world = (.error error, behind) ∧
      (obtainExecutable (arrangement.setting options) name).eval other =
        (.error error, otherBehind)) ∨
    Excused arrangement.Overfull ((obtainExecutable (arrangement.setting options) name).eval world) ∨
    Excused arrangement.Overfull ((obtainExecutable (arrangement.setting options) name).eval other) := by
  obtain ⟨served, obtains, -⟩ := serves.obtain strict isAllowed name
  obtain ⟨otherServed, otherObtains, -⟩ := otherServes.obtain strict isAllowed name
  have offers : arrangement.offer other options name = arrangement.offer world options name :=
    serves.stocks.offer_eq isAllowed peers.adapters
      (peers.fileDocument_eq arrangement.settings name)
  generalize (obtainExecutable (arrangement.setting options) name).eval world = result
    at served obtains ⊢
  generalize (obtainExecutable (arrangement.setting options) name).eval other = otherResult
    at otherServed otherObtains ⊢
  rcases result with ⟨error | found, behind⟩ <;>
    rcases otherResult with ⟨otherError | otherFound, otherBehind⟩
  · rcases obtains with offered | crowded
    · rcases otherObtains with otherOffered | crowded
      · rw [offers, offered] at otherOffered
        cases otherOffered
        exact .inr (.inl ⟨_, _, _, rfl, rfl⟩)
      · exact .inr (.inr (.inr ⟨⟨_, rfl⟩, otherServed, crowded⟩))
    · exact .inr (.inr (.inl ⟨⟨_, rfl⟩, served, crowded⟩))
  · rcases obtains with offered | crowded
    · obtain ⟨document, otherOffered, -⟩ := otherObtains
      rw [offers, offered] at otherOffered
      cases otherOffered
    · exact .inr (.inr (.inl ⟨⟨_, rfl⟩, served, crowded⟩))
  · rcases otherObtains with otherOffered | crowded
    · obtain ⟨document, offered, -⟩ := obtains
      rw [offers, offered] at otherOffered
      cases otherOffered
    · exact .inr (.inr (.inr ⟨⟨_, rfl⟩, otherServed, crowded⟩))
  · obtain ⟨document, offered, compiled⟩ := obtains
    obtain ⟨otherDocument, otherOffered, otherCompiled⟩ := otherObtains
    rw [offers, offered] at otherOffered
    cases otherOffered
    exact .inl ⟨found, otherFound, behind, otherBehind, document, rfl, rfl, compiled,
      otherCompiled⟩

namespace Mirrors

theorem recordDependency_agree (strict : arrangement.Strict) {document other : Executable}
    (name : String) :
    Agree (arrangement.Mirrors context pairs) (recordDependency document name)
      (recordDependency other name) := by
  intro first second mirrors
  obtain ⟨serves, beside⟩ := maintains_recordDependency strict document name first
    mirrors.first.serves
  obtain ⟨otherServes, otherBeside⟩ := maintains_recordDependency strict other name second
    mirrors.second.serves
  refine ⟨?_, mirrors.beside (beside context) (otherBeside context) serves otherServes⟩
  rw [eval_recordDependency, eval_recordDependency]

/-- Two executables of one document are the same program. -/
theorem program (mirrors : arrangement.Mirrors context pairs world other)
    {first second : ExecutableId} (known : (first, second) ∈ pairs) :
    SameProgram (world.executables.get first) (other.executables.get second) ∧
      SpeakMini (world.executables.get first).segments ∧
      ∃ options, arrangement.allowed options ∧
        (world.executables.get first).setting = arrangement.setting options := by
  obtain ⟨options, document, isAllowed, compiled, otherCompiled⟩ := mirrors.pairs _ known
  obtain ⟨segments, compiles, made, form⟩ := compiled
  obtain ⟨others, otherCompiles, -, otherForm⟩ := otherCompiled
  have same : segments = others :=
    compiles.unique (otherCompiles.of_same mirrors.peers.adapters.symm)
  subst same
  refine ⟨⟨?_, ?_, ?_, ?_⟩, ?_, options, isAllowed, form.setting⟩
  · rw [form.documentName, otherForm.documentName]
  · rw [form.partition, otherForm.partition]
  · rw [form.setting, otherForm.setting]
  · rw [form.segments, otherForm.segments]
  · rw [form.segments]
    exact made.speakMini

/-- Executables of the same document are obtained, or they are missing for the same reason. -/
theorem obtain (mirrors : arrangement.Mirrors context pairs world other)
    (strict : arrangement.Strict) {options : CompileOptions}
    (isAllowed : arrangement.allowed options) (name : String) :
    (∃ found otherFound behind otherBehind,
      (obtainExecutable (arrangement.setting options) name).eval world = (.ok found, behind) ∧
      (obtainExecutable (arrangement.setting options) name).eval other =
        (.ok otherFound, otherBehind) ∧
      arrangement.Mirrors context ((found, otherFound) :: pairs) behind otherBehind) ∨
    (∃ error behind otherBehind,
      (obtainExecutable (arrangement.setting options) name).eval world = (.error error, behind) ∧
      (obtainExecutable (arrangement.setting options) name).eval other =
        (.error error, otherBehind) ∧
      arrangement.Mirrors context pairs behind otherBehind) ∨
    Excused arrangement.Overfull ((obtainExecutable (arrangement.setting options) name).eval world) ∨
    Excused arrangement.Overfull ((obtainExecutable (arrangement.setting options) name).eval other) := by
  obtain ⟨serves, -, beside⟩ := mirrors.first.serves.obtain strict isAllowed name
  obtain ⟨otherServes, -, otherBeside⟩ := mirrors.second.serves.obtain strict isAllowed name
  have related := mirrors.beside (beside context) (otherBeside context) serves otherServes
  rcases obtain_of_peers mirrors.peers mirrors.first.serves mirrors.second.serves strict isAllowed name with
    ⟨found, otherFound, behind, otherBehind, document, obtained, otherObtained, compiled⟩ |
    ⟨error, behind, otherBehind, failed, otherFailed⟩ | excused
  · rw [obtained, otherObtained] at related
    exact .inl ⟨found, otherFound, behind, otherBehind, obtained, otherObtained,
      { related with pairs := List.forall_mem_cons.2 ⟨⟨options, document, isAllowed, compiled⟩,
          related.pairs⟩ }⟩
  · rw [failed, otherFailed] at related
    exact .inr (.inl ⟨error, behind, otherBehind, failed, otherFailed, related⟩)
  · exact .inr (.inr excused)

/-- Runs on a context that is the same in both hosts go in lockstep. -/
theorem lockstep (strict : arrangement.Strict) (context : ContextId) :
    Lockstep (arrangement.Mirrors context) arrangement.Overfull context context where
  weaken mirrors := { mirrors with pairs := fun pair member => mirrors.pairs pair (by simp [member]) }
  program mirrors known := by
    obtain ⟨same, speaks, -⟩ := mirrors.program known
    exact ⟨same, speaks⟩
  marks mirrors := by
    rw [mirrors.context]
    exact ⟨rfl, rfl⟩
  depth mirrors := mirrors.peers.depth.symm
  setDepth includeDepth mirrors := mirrors.setDepth includeDepth
  excuseDepth _ overfull :=
    overfull.elsewhere ⟨_, _, _, _, _, _, _, rfl⟩ rfl
  source mirrors := by
    have same := congrArg Option.isNone mirrors.peers.source
    rw [Option.isNone_map, Option.isNone_map] at same
    exact same.symm
  serve {pairs request} _ _ _ _ makes noInclude := by
    cases makes with
    | includeDocument name => exact absurd rfl (noInclude name)
    | write stream text => exact (writeText_agree stream text).convert _
    | readAttribute name => exact (onContext_agree (Context.attribute? name)).convert _
    | setAttribute name value => exact (onContext_agree (Context.setAttribute name value)).convert _
    | findService name => exact (onContext_agree (Context.service? name)).convert _
    | setService name service => exact (onContext_agree (Context.setService name service)).convert _
    | readGlobal name =>
        refine .get fun world other mirrors => ?_
        rw [mirrors.peers.globals]
        exact .pure mirrors _
    | setGlobal name value =>
        refine .get fun world other mirrors => ?_
        rw [mirrors.peers.globals]
        exact (AgreeFrom.set (mirrors.setGlobals _)).bind fun _ => .pure _
  addAdapter adapter := (onContext_agree (Context.addAdapter adapter)).convert _
  current agree := withCurrent_agree agree
  keep known agree := keeping_agree _ _ agree
  use known := noteUse_agree
  obtain {pairs world other first second} name mirrors known := by
    obtain ⟨-, -, options, isAllowed, isSetting⟩ := mirrors.program known
    rw [isSetting]
    exact mirrors.obtain strict (strict.includes options isAllowed) name
  record name same := recordDependency_agree strict name

end Mirrors

end Arrangement

end DocumentHost
