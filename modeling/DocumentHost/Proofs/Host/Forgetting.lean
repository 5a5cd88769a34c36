import DocumentHost.Proofs.Host.Compiling
import DocumentHost.Proofs.Host.Releasing

/-!
# Which adapter ran last

A context keeps a record of the adapters that have run in it.  In a host that speaks Mini
only, an operation takes no notice of the record of the current context: in two states
that agree but for that record, every part of compiling and running a document ends alike
and leaves two states that agree again but for that record.
-/

namespace DocumentHost

/-- A context without the record of its adapters. -/
def Context.forgetAdapters (context : Context) : Context :=
  { context with adapters := [], lastAdapter := none }

/-- The contexts, one of them without its record. -/
def forgetAdapters (context : ContextId) (contexts : Arena .context Context) :
    Arena .context Context :=
  contexts.modify context Context.forgetAdapters

/-- Two states agree but for the record of a context. -/
structure Indistinct (context : ContextId) (world other : World) : Prop where
  rest : other = { world with contexts := other.contexts }
  contexts : forgetAdapters context world.contexts = forgetAdapters context other.contexts

namespace Indistinct

variable {context : ContextId} {world other further : World}

theorem refl (context : ContextId) (world : World) : Indistinct context world world :=
  ⟨rfl, rfl⟩

theorem symm (indistinct : Indistinct context world other) : Indistinct context other world where
  rest := by
    conv_rhs => rw [indistinct.rest]
  contexts := indistinct.contexts.symm

theorem trans (first : Indistinct context world other) (second : Indistinct context other further) :
    Indistinct context world further where
  rest := by
    conv_lhs => rw [second.rest, first.rest]
  contexts := first.contexts.trans second.contexts

theorem sameAdapters (indistinct : Indistinct context world other) :
    SameAdapters world other := by
  rw [indistinct.rest]
  exact ⟨rfl, rfl⟩

theorem size_contexts (indistinct : Indistinct context world other) :
    world.contexts.size = other.contexts.size := by
  have sizes := congrArg Arena.size indistinct.contexts
  rwa [forgetAdapters, forgetAdapters, Arena.size_modify, Arena.size_modify] at sizes

/-- The context is the same but for its record. -/
theorem context_eq (indistinct : Indistinct context world other)
    (known : context.index < world.contexts.size) :
    (world.contexts.get context).forgetAdapters =
      (other.contexts.get context).forgetAdapters := by
  have same := congrArg (fun contexts : Arena .context Context => contexts.get context)
    indistinct.contexts
  rwa [forgetAdapters, forgetAdapters, Arena.get_modify_self _ _ known,
    Arena.get_modify_self _ _ (indistinct.size_contexts ▸ known)] at same

/-- All other contexts are the same. -/
theorem context_eq_of_ne (indistinct : Indistinct context world other) {id : ContextId}
    (differs : id ≠ context) : world.contexts.get id = other.contexts.get id := by
  have same := congrArg (fun contexts : Arena .context Context => contexts.get id)
    indistinct.contexts
  rwa [forgetAdapters, forgetAdapters, Arena.get_modify_of_ne _ _ differs,
    Arena.get_modify_of_ne _ _ differs] at same

theorem quiet {change : World → World} (quiet : Quiet change)
    (indistinct : Indistinct context world other) :
    Indistinct context (change world) (change other) where
  rest := by
    conv_lhs => rw [indistinct.rest]
    rw [quiet.contexts, quiet.contexts_eq]
  contexts := by
    rw [quiet.contexts_eq, quiet.contexts_eq]
    exact indistinct.contexts

/-- The change of another context in both states. -/
theorem modifyContext (indistinct : Indistinct context world other) {id : ContextId}
    (differs : id ≠ context) (change : Context → Context) :
    Indistinct context (world.modifyContext id change) (other.modifyContext id change) where
  rest := by
    conv_lhs => rw [indistinct.rest]
    rfl
  contexts := by
    change forgetAdapters context (world.contexts.modify id change) =
      forgetAdapters context (other.contexts.modify id change)
    rw [forgetAdapters, forgetAdapters, Arena.modify_comm _ differs, Arena.modify_comm _ differs]
    exact congrArg (fun contexts : Arena .context Context => contexts.modify id change)
      indistinct.contexts

/-- The context is replaced in both states, up to its record. -/
theorem replace (indistinct : Indistinct context world other) {changed otherChanged : Context}
    (same : changed.forgetAdapters = otherChanged.forgetAdapters) :
    Indistinct context (world.modifyContext context fun _ => changed)
      (other.modifyContext context fun _ => otherChanged) where
  rest := by
    conv_lhs => rw [indistinct.rest]
    rfl
  contexts := by
    have replaced := congrArg (fun contexts : Arena .context Context =>
      contexts.modify context fun _ => changed.forgetAdapters) indistinct.contexts
    simp only [forgetAdapters, Arena.modify_modify_self] at replaced
    simp only [forgetAdapters, World.modifyContext, Arena.modify_modify_self]
    rw [show Context.forgetAdapters ∘ (fun _ => otherChanged) =
      fun _ : Context => changed.forgetAdapters from funext fun _ => same.symm]
    exact replaced

theorem releaseHooks (indistinct : Indistinct context world other) {id : ContextId}
    (differs : id ≠ context) (adapters : List AdapterId) :
    Indistinct context (adapters.foldl (World.releaseHook id) world)
      (adapters.foldl (World.releaseHook id) other) := by
  induction adapters generalizing world other with
  | nil => exact indistinct
  | cons adapter rest ih =>
      apply ih
      have same := indistinct.context_eq_of_ne differs
      rw [indistinct.rest] at same ⊢
      constructor
      · rw [World.releaseHook_eq, World.releaseHook_eq, same]
      · exact indistinct.contexts

theorem dropContext (indistinct : Indistinct context world other) {id : ContextId}
    (differs : id ≠ context) :
    Indistinct context (world.dropContext id) (other.dropContext id) := by
  unfold World.dropContext World.releaseNow
  rw [indistinct.context_eq_of_ne differs]
  split
  · exact indistinct
  · exact ((indistinct.modifyContext differs _).releaseHooks differs _).modifyContext differs _

/-- Other contexts are let go of alike, as long as the context is held. -/
theorem releaseUnheld (indistinct : Indistinct context world other)
    (held : context ∈ world.heldContexts) :
    Indistinct context world.releaseUnheld other.releaseUnheld := by
  have drops (ids : List ContextId) (spared : context ∉ ids) {start otherStart : World}
      (indistinct : Indistinct context start otherStart) :
      Indistinct context (ids.foldl World.dropContext start)
        (ids.foldl World.dropContext otherStart) := by
    induction ids generalizing start otherStart with
    | nil => exact indistinct
    | cons id rest ih =>
        have differs : id ≠ context := by
          rintro rfl
          exact spared (by simp)
        exact ih (fun member => spared (by simp [member])) (indistinct.dropContext differs)
  have sameIds : world.contexts.ids = other.contexts.ids := by
    have sizes := indistinct.size_contexts
    simp only [Arena.size] at sizes
    rw [Arena.ids, Arena.ids, sizes]
  have sameHeld : world.heldContexts = other.heldContexts := by
    rw [indistinct.rest]
    rfl
  unfold World.releaseUnheld
  rw [← sameIds, ← sameHeld]
  apply drops _ _ indistinct
  simp [held]

end Indistinct

/-! ## Runs -/

/-- Two states of a run agree but for the record of the context that is at work. -/
structure Alike (context : ContextId) (pairs : List (ExecutableId × ExecutableId))
    (world other : World) : Prop where
  indistinct : Indistinct context world other
  speaks : world.SpeaksMini
  current : world.current = some context
  known : context.index < world.contexts.size
  unreleased : (world.contexts.get context).released = false
  pairs : ∀ pair ∈ pairs, pair.1 = pair.2

theorem World.mem_heldContexts_of_current {world : World} {context : ContextId}
    (current : world.current = some context) : context ∈ world.heldContexts := by
  simp [World.heldContexts, current]

namespace Alike

variable {context : ContextId} {pairs : List (ExecutableId × ExecutableId)} {world other : World}

/-- The relation has the laws that compiling asks for. -/
theorem compiling (context : ContextId) (pairs : List (ExecutableId × ExecutableId)) :
    Compiling (Alike context pairs) where
  visible alike := alike.indistinct.rest
  speaks alike := alike.speaks
  quiet {world other change} quiet alike := {
    indistinct := alike.indistinct.quiet quiet
    speaks := alike.speaks.of_eq (quiet.sameAdapters world) (quiet.executables world)
    current := (quiet.current world).trans alike.current
    known := by
      rw [quiet.contexts_eq]
      exact alike.known
    unreleased := by
      rw [quiet.contexts_eq]
      exact alike.unreleased
    pairs := alike.pairs }
  releaseUnheld {world other} alike := by
    have held := World.mem_heldContexts_of_current alike.current
    have only := World.ReleasesOnly.releaseUnheld world
    refine ⟨alike.indistinct.releaseUnheld held, ?_, ?_, ?_, ?_, alike.pairs⟩
    · rw [only.rest]
      exact alike.speaks.of_eq ⟨rfl, rfl⟩ rfl
    · rw [only.rest]
      exact alike.current
    · rw [only.size]
      exact alike.known
    · rw [only.spares context held]
      exact alike.unreleased
  addExecutable {world other} executable speak alike := by
    have executables : other.executables = world.executables := by
      rw [alike.indistinct.rest]
    refine ⟨⟨?_, alike.indistinct.contexts⟩, alike.speaks.addExecutable speak, alike.current,
      alike.known, alike.unreleased, alike.pairs⟩
    conv_lhs => rw [alike.indistinct.rest]

end Alike

end DocumentHost
