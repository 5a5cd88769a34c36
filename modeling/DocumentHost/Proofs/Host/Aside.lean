import DocumentHost.Host.Execute
import DocumentHost.Proofs.Arena
import DocumentHost.Proofs.Context.Operations
import DocumentHost.Proofs.Host.Brackets
import DocumentHost.Proofs.Host.Keeping
import DocumentHost.Proofs.Host.Releasing

/-!
# Changes aside

Most of what a running program does has nothing to do with the documents of the host, nor
with which context is bound to which executable: it writes, it sets attributes and global
values, it holds and releases.  Contexts and executables are made, and none is taken away;
a context that is frozen stays frozen.
-/

namespace DocumentHost

/-- The contexts that can be entered, and what contexts are bound to, stay as they are. -/
structure World.SameBindings (world after : World) : Prop where
  executables : world.executables.size ≤ after.executables.size
  contexts : world.contexts.size ≤ after.contexts.size
  enterable : ∀ id,
    (after.executables.get id).enterable = (world.executables.get id).enterable
  enterableFor : ∀ id,
    (after.contexts.get id).enterableFor = (world.contexts.get id).enterableFor
  frozen : ∀ id, (world.contexts.get id).frozen = true → (after.contexts.get id).frozen = true

/-- Documents and bindings stay as they are. -/
structure World.Aside (world after : World) : Prop extends World.SameBindings world after where
  descriptors : after.descriptors = world.descriptors
  source : after.source = world.source

namespace World

theorem SameBindings.lasting : Lasting SameBindings where
  refl _ := ⟨Nat.le_refl _, Nat.le_refl _, fun _ => rfl, fun _ => rfl, fun _ frozen => frozen⟩
  trans first second :=
    { executables := Nat.le_trans first.executables second.executables
      contexts := Nat.le_trans first.contexts second.contexts
      enterable := fun id => (second.enterable id).trans (first.enterable id)
      enterableFor := fun id => (second.enterableFor id).trans (first.enterableFor id)
      frozen := fun id frozen => second.frozen id (first.frozen id frozen) }

/-- A state with the same executables and contexts. -/
theorem SameBindings.of_eq {world after : World} (executables : after.executables = world.executables)
    (contexts : after.contexts = world.contexts) : SameBindings world after := by
  refine ⟨Nat.le_of_eq (by rw [executables]), Nat.le_of_eq (by rw [contexts]), ?_, ?_, ?_⟩
  · intro id
    rw [executables]
  · intro id
    rw [contexts]
  · intro id frozen
    rwa [contexts]

namespace Aside

theorem lasting : Lasting Aside where
  refl world := ⟨SameBindings.lasting.refl world, rfl, rfl⟩
  trans first second :=
    ⟨SameBindings.lasting.trans first.toSameBindings second.toSameBindings,
      second.descriptors.trans first.descriptors, second.source.trans first.source⟩

theorem of_eq {world after : World} (executables : after.executables = world.executables)
    (contexts : after.contexts = world.contexts)
    (descriptors : after.descriptors = world.descriptors)
    (source : after.source = world.source) : Aside world after :=
  ⟨.of_eq executables contexts, descriptors, source⟩

/-- A change of a context that neither binds nor thaws it. -/
theorem modifyContext (world : World) (id : ContextId) {change : Context → Context}
    (enterableFor : (change (world.contexts.get id)).enterableFor =
      (world.contexts.get id).enterableFor)
    (frozen : (world.contexts.get id).frozen = true →
      (change (world.contexts.get id)).frozen = true) :
    Aside world (world.modifyContext id change) := by
  refine ⟨⟨Nat.le_refl _, Nat.le_of_eq (Arena.size_modify ..).symm, fun _ => rfl, ?_, ?_⟩, rfl, rfl⟩
  · exact Arena.map_get_modify Context.enterableFor world.contexts id enterableFor
  · exact Arena.related_modify (fun before after => before.frozen = true → after.frozen = true)
      (fun _ wasFrozen => wasFrozen) world.contexts id frozen

theorem addContext (world : World) {context : Context} (unbound : context.enterableFor = none) :
    Aside world { world with contexts := (world.contexts.add context).2 } := by
  refine ⟨⟨Nat.le_refl _, by simp, fun _ => rfl, ?_, fun id wasFrozen => ?_⟩, rfl, rfl⟩
  · exact Arena.map_get_add Context.enterableFor world.contexts unbound
  · rwa [Arena.get_add_of_marked wasFrozen rfl]

/-- A change of an executable that leaves the contexts alone that can be entered. -/
theorem modifyExecutable (world : World) (id : ExecutableId) {change : Executable → Executable}
    (same : ∀ executable, (change executable).enterable = executable.enterable) :
    Aside world (world.modifyExecutable id change) := by
  refine ⟨⟨Nat.le_of_eq (Arena.size_modify ..).symm, Nat.le_refl _, ?_, fun _ => rfl,
    fun _ frozen => frozen⟩, rfl, rfl⟩
  exact Arena.map_get_modify Executable.enterable world.executables id (same _)

theorem addExecutable (world : World) {executable : Executable}
    (unbound : executable.enterable = {}) :
    Aside world { world with executables := (world.executables.add executable).2 } := by
  refine ⟨⟨by simp, Nat.le_refl _, ?_, fun _ => rfl, fun _ frozen => frozen⟩, rfl, rfl⟩
  exact Arena.map_get_add Executable.enterable world.executables unbound

/-! ## Releases -/

theorem releaseHooks (id : ContextId) (world : World) (adapters : List AdapterId) :
    Aside world (adapters.foldl (releaseHook id) world) := by
  induction adapters generalizing world with
  | nil => exact lasting.refl world
  | cons adapter rest ih =>
      have hook : Aside world (world.releaseHook id adapter) := .of_eq rfl rfl rfl rfl
      exact lasting.trans hook (ih _)

theorem releaseNow (world : World) (id : ContextId) : Aside world (world.releaseNow id) := by
  have begun : Aside world (world.modifyContext id fun context =>
      { context with releasing := true, adapters := [] }) :=
    modifyContext world id rfl fun frozen => frozen
  have told := lasting.trans begun (releaseHooks id _ (world.contexts.get id).adapters)
  exact lasting.trans told (modifyContext _ id rfl fun frozen => frozen)

end Aside

end World

/-! ## What touches no context -/

/-- Two executables of one program. -/
structure SameProgram (first second : Executable) : Prop where
  documentName : first.documentName = second.documentName
  partition : first.partition = second.partition
  setting : first.setting = second.setting
  segments : first.segments = second.segments

namespace SameProgram

theorem refl (executable : Executable) : SameProgram executable executable :=
  ⟨rfl, rfl, rfl, rfl⟩

theorem trans {first second third : Executable} (before : SameProgram first second)
    (behind : SameProgram second third) : SameProgram first third :=
  ⟨before.documentName.trans behind.documentName, before.partition.trans behind.partition,
    before.setting.trans behind.setting, before.segments.trans behind.segments⟩

end SameProgram

/-- Contexts, documents, files and bindings stay as they are, executables stay what they were
made, and nobody is told of a release. -/
structure World.Outside (world after : World) : Prop where
  adapters : after.adapters = world.adapters
  registries : after.registries = world.registries
  contexts : after.contexts = world.contexts
  descriptors : after.descriptors = world.descriptors
  source : after.source = world.source
  files : after.files = world.files
  executables : world.executables.size ≤ after.executables.size
  enterable : ∀ id,
    (after.executables.get id).enterable = (world.executables.get id).enterable
  programs : ∀ id, id.index < world.executables.size →
    SameProgram (world.executables.get id) (after.executables.get id)
  journal : ∃ reports : List String, after.journal = world.journal ++ reports.map .note

namespace World.Outside

theorem of_eq {world after : World} (adapters : after.adapters = world.adapters)
    (registries : after.registries = world.registries)
    (contexts : after.contexts = world.contexts)
    (descriptors : after.descriptors = world.descriptors) (source : after.source = world.source)
    (files : after.files = world.files) (executables : after.executables = world.executables)
    (journal : after.journal = world.journal) : Outside world after := by
  refine ⟨adapters, registries, contexts, descriptors, source, files,
    Nat.le_of_eq (by rw [executables]), ?_, ?_, [], ?_⟩
  · intro id
    rw [executables]
  · intro id _
    rw [executables]
    exact .refl _
  · rw [journal, List.map_nil, List.append_nil]

theorem noteAll (world : World) (texts : List String) : Outside world (world.noteAll texts) :=
  ⟨rfl, rfl, rfl, rfl, rfl, rfl, Nat.le_refl _, fun _ => rfl, fun _ _ => ⟨rfl, rfl, rfl, rfl⟩, texts,
    rfl⟩

theorem modifyExecutable (world : World) (id : ExecutableId) {change : Executable → Executable}
    (enterable : ∀ executable, (change executable).enterable = executable.enterable)
    (program : ∀ executable, SameProgram executable (change executable)) :
    Outside world (world.modifyExecutable id change) := by
  have aside := Aside.modifyExecutable world id enterable
  refine ⟨rfl, rfl, rfl, rfl, rfl, rfl, aside.executables, aside.enterable, fun other _ => ?_, [],
    (List.append_nil _).symm⟩
  exact Arena.related_modify SameProgram .refl world.executables id (program _) other

theorem addExecutable (world : World) {executable : Executable}
    (unbound : executable.enterable = {}) :
    Outside world { world with executables := (world.executables.add executable).2 } := by
  have aside := Aside.addExecutable world unbound
  refine ⟨rfl, rfl, rfl, rfl, rfl, rfl, aside.executables, aside.enterable, fun other known => ?_,
    [], (List.append_nil _).symm⟩
  rw [Arena.get_add_of_lt _ _ known]
  exact .refl _

theorem aside {world after : World} (outside : Outside world after) : Aside world after := by
  refine ⟨⟨outside.executables, Nat.le_of_eq (by rw [outside.contexts]), outside.enterable, ?_, ?_⟩,
    outside.descriptors, outside.source⟩
  · intro id
    rw [outside.contexts]
  · intro id frozen
    rwa [outside.contexts]

end World.Outside

/-! ## Relations that changes aside keep -/

/-- A lasting relation that holds across whatever touches no context, across operations on
contexts, and across releases. -/
structure Tolerant (Related : World → World → Prop) : Prop where
  lasting : Lasting Related
  outside : ∀ {world after : World}, world.Outside after → Related world after
  operate : ∀ (world : World) (id : ContextId) (operation : Context.Operation),
    Related world ((onContext id operation.run).eval world).2
  releaseNow : ∀ (world : World) (id : ContextId), (world.contexts.get id).releasing = false →
    Related world (world.releaseNow id)

namespace Tolerant

variable {ε α : Type} {Related : World → World → Prop}

/-- A lasting relation that holds across all changes aside. -/
theorem of_asides (lasting : Lasting Related)
    (aside : ∀ {world after : World}, world.Aside after → Related world after) :
    Tolerant Related where
  lasting := lasting
  outside outside := aside outside.aside
  operate world id operation := by
    rw [HostM.eval_onContext]
    cases done : operation.run (world.contexts.get id) with
    | error error => exact lasting.refl world
    | ok result =>
        obtain ⟨-, -, -, changed⟩ := Context.Operation.permitted_of_run done
        obtain ⟨-, -, enterableFor, frozen⟩ :=
          operation.marks_of_change (world.contexts.get id)
        rw [← changed] at enterableFor frozen
        exact aside (.modifyContext world id enterableFor frozen)
  releaseNow world id _ := aside (.releaseNow world id)

theorem of_aside : Tolerant World.Aside :=
  of_asides World.Aside.lasting id

/-- A lasting relation for which contexts and the journal make no difference. -/
theorem of_contexts (lasting : Lasting Related)
    (outside : ∀ {world after : World}, world.Outside after → Related world after)
    (contexts : ∀ (world : World) contexts journal,
      Related world { world with contexts, journal }) : Tolerant Related where
  lasting := lasting
  outside := outside
  operate world id operation := by
    rw [HostM.eval_onContext]
    split
    · exact contexts world _ world.journal
    · exact lasting.refl world
  releaseNow world id _ := by
    have only : World.ReleasesOnly (fun _ => False) world (world.releaseNow id) :=
      .releaseNow not_false world
    rw [only.rest]
    exact contexts world _ _

theorem noteAll (tolerant : Tolerant Related) (world : World) (texts : List String) :
    Related world (world.noteAll texts) :=
  tolerant.outside (.noteAll world texts)

theorem ofReported (tolerant : Tolerant Related) (work : Reported ε α) :
    (HostM.ofReported work).Keeps Related :=
  tolerant.lasting.ofReported work fun world => tolerant.noteAll world _

theorem readClock (tolerant : Tolerant Related) :
    (readClock : HostM ε Instant).Keeps Related :=
  Lasting.readClock fun _ => tolerant.outside (.of_eq rfl rfl rfl rfl rfl rfl rfl rfl)

theorem onContext (tolerant : Tolerant Related) (id : ContextId)
    (operation : Context.Operation) : (onContext id operation.run).Keeps Related :=
  fun world => tolerant.operate world id operation

theorem inContext (tolerant : Tolerant Related) (id : ContextId)
    (operation : Context.Operation) : (inContext id operation.run).Keeps Related :=
  Lasting.convert _ (tolerant.onContext id operation)

theorem writeText (tolerant : Tolerant Related) (id : ContextId) (stream : Stream)
    (text : String) : (writeText id stream text).Keeps Related := by
  unfold DocumentHost.writeText
  refine Lasting.get fun world => ?_
  refine tolerant.lasting.bindFrom (tolerant.lasting.ofExcept _ world) fun _ between checked => ?_
  rw [HostM.eval_ofExcept] at checked
  obtain rfl : world = between := congrArg Prod.snd checked
  split
  · exact tolerant.outside (.of_eq rfl rfl rfl rfl rfl rfl rfl rfl)
  · exact tolerant.lasting.throw _ world

theorem flushOutputs (tolerant : Tolerant Related) (id : ContextId) :
    (flushOutputs id).Keeps Related := by
  unfold DocumentHost.flushOutputs
  have flushes (outcome : Except ContextError Unit) := tolerant.lasting.ofExcept outcome
  refine Lasting.get fun world => ?_
  exact tolerant.lasting.bind (flushes _) (fun _ => tolerant.lasting.bind (flushes _) fun _ =>
    flushes _) world

theorem release (tolerant : Tolerant Related) (id : ContextId) :
    (release id).Keeps Related := by
  unfold DocumentHost.release
  refine Lasting.get fun world => ?_
  split
  · exact tolerant.lasting.throw _ world
  · rename_i unbegun
    exact tolerant.releaseNow world id (Bool.eq_false_iff.2 unbegun)

theorem dropContext (tolerant : Tolerant Related) (world : World) (id : ContextId) :
    Related world (world.dropContext id) := by
  unfold World.dropContext
  split
  · exact tolerant.lasting.refl world
  · rename_i unbegun
    exact tolerant.releaseNow world id (Bool.eq_false_iff.2 unbegun)

theorem releaseUnheld (tolerant : Tolerant Related) (world : World) :
    Related world world.releaseUnheld := by
  have drops (ids : List ContextId) (start : World) :
      Related start (ids.foldl World.dropContext start) := by
    induction ids generalizing start with
    | nil => exact tolerant.lasting.refl start
    | cons id rest ih => exact tolerant.lasting.trans (tolerant.dropContext start id) (ih _)
  exact drops _ world

theorem noteUse (tolerant : Tolerant Related) (id : ExecutableId) :
    (noteUse id : HostM ε Unit).Keeps Related :=
  tolerant.lasting.bind tolerant.readClock fun _ =>
    Lasting.modify fun world =>
      tolerant.outside (.modifyExecutable world id (fun _ => rfl) fun _ => ⟨rfl, rfl, rfl, rfl⟩)

/-- What is held makes no difference. -/
theorem holding (tolerant : Tolerant Related) (more : Holdings) {action : HostM ε α}
    (kept : action.Keeps Related) : (holding more action).Keeps Related := by
  intro world
  rw [HostM.KeepsFrom, HostM.eval_holding]
  have begun : Related world (world.holdingMore more) :=
    tolerant.outside (.of_eq rfl rfl rfl rfl rfl rfl rfl rfl)
  have done := tolerant.lasting.trans begun (kept (world.holdingMore more))
  exact tolerant.lasting.trans done (tolerant.outside (.of_eq rfl rfl rfl rfl rfl rfl rfl rfl))

theorem keeping (tolerant : Tolerant Related) (more : Holdings) {action : HostM ε α}
    (kept : action.Keeps Related) : (keeping more action).Keeps Related := by
  refine tolerant.lasting.bind (Lasting.attempt (tolerant.holding more kept)) fun outcome => ?_
  refine tolerant.lasting.bind (Lasting.modify fun world => ?_) fun _ =>
    tolerant.lasting.ofExcept outcome
  exact tolerant.releaseUnheld world

/-- Nor does it make a difference which context is current. -/
theorem withCurrent (tolerant : Tolerant Related) {context : ContextId} {action : HostM ε α}
    (kept : action.Keeps Related) : (withCurrent context action).Keeps Related := by
  have replaces (current : Option ContextId) :
      (replaceCurrent current : HostM ε (Option ContextId)).Keeps Related := fun world =>
    tolerant.outside (.of_eq rfl rfl rfl rfl rfl rfl rfl rfl)
  refine tolerant.lasting.bind (replaces _) fun previous => ?_
  refine tolerant.lasting.bind (Lasting.attempt (tolerant.holding _ kept)) fun outcome => ?_
  exact tolerant.lasting.bind (replaces _) fun _ => tolerant.lasting.ofExcept outcome

theorem asInclude (tolerant : Tolerant Related) (name : String) {action : HostM ExecutionError α}
    (kept : action.Keeps Related) : (asInclude name action).Keeps Related := by
  unfold DocumentHost.asInclude
  refine Lasting.get fun world => ?_
  dsimp only
  split
  · exact tolerant.lasting.throw _ world
  have deepens (deepen : World → Nat) :
      (modify fun world => { world with includeDepth := deepen world } :
        HostM ExecutionError Unit).Keeps Related :=
    Lasting.modify fun _ => tolerant.outside (.of_eq rfl rfl rfl rfl rfl rfl rfl rfl)
  refine tolerant.lasting.bind (deepens _) (fun _ => ?_) world
  refine tolerant.lasting.bind (Lasting.attempt kept) fun outcome => ?_
  exact tolerant.lasting.bind (deepens _) fun _ => tolerant.lasting.ofExcept outcome

end Tolerant

theorem World.Aside.releaseUnheld (world : World) : World.Aside world world.releaseUnheld :=
  Tolerant.of_aside.releaseUnheld world

end DocumentHost
