import DocumentHost.Host.Reclaim
import Mathlib.Data.List.Basic

/-!
# What a release changes

A release marks its context and is noted in the journal.  Other contexts, and everything
that is no context, stay as they are; so whoever looks at neither does not see that what
nobody holds has been let go of.
-/

namespace DocumentHost

namespace Arena

variable {kind : Kind} {α : Type} {id other : Identity kind}

theorem modify_modify_self (arena : Arena kind α) (id : Identity kind) (first second : α → α) :
    (arena.modify id first).modify id second = arena.modify id (second ∘ first) := by
  simp [modify, List.modify_modify_eq]

theorem modify_comm (arena : Arena kind α) (differs : id ≠ other) (first second : α → α) :
    (arena.modify id first).modify other second =
      (arena.modify other second).modify id first := by
  have indexDiffers : id.index ≠ other.index := fun same =>
    differs (by cases id; cases other; simp_all)
  simp only [modify]
  rw [List.modify_modify_ne _ _ _ indexDiffers]

theorem modify_id (arena : Arena kind α) (place : Identity kind) :
    arena.modify place (fun item => item) = arena :=
  congrArg Arena.mk (List.modify_id ..)

/-- Putting in place a changed object is changing it. -/
theorem modify_const_get [Inhabited α] (arena : Arena kind α) (id : Identity kind)
    (change : α → α) :
    arena.modify id (fun _ => change (arena.get id)) = arena.modify id change := by
  simp only [modify, get, mk.injEq]
  apply List.ext_getElem?
  intro index
  by_cases here : id.index = index
  · subst here
    cases found : arena.items[id.index]? <;> simp [found]
  · simp [here]

end Arena

namespace World

/-- A context is put in place as it was. -/
theorem modifyContext_get (world : World) (context : ContextId) :
    world.modifyContext context (fun _ => world.contexts.get context) = world := by
  have same : world.contexts.modify context (fun _ => world.contexts.get context) =
      world.contexts :=
    (Arena.modify_const_get _ _ fun found => found).trans (Arena.modify_id _ _)
  exact congrArg (fun contexts => { world with contexts }) same

theorem releaseHook_eq (context : ContextId) (world : World) (adapter : AdapterId) :
    world.releaseHook context adapter =
      { world with journal := world.journal ++ [.releaseHook context adapter] ++
          ((world.adapters.get adapter).adapter.onRelease
            (world.contexts.get context).released).map .note } :=
  rfl

/-- A change that touches contexts and the journal only, and not the contexts of a kind. -/
structure ReleasesOnly (spared : ContextId → Prop) (world changed : World) : Prop where
  rest : changed = { world with contexts := changed.contexts, journal := changed.journal }
  size : changed.contexts.size = world.contexts.size
  spares : ∀ id, spared id → changed.contexts.get id = world.contexts.get id

namespace ReleasesOnly

variable {spared : ContextId → Prop} {world changed further : World}

theorem refl (world : World) : ReleasesOnly spared world world :=
  ⟨rfl, rfl, fun _ _ => rfl⟩

theorem trans (first : ReleasesOnly spared world changed)
    (second : ReleasesOnly spared changed further) : ReleasesOnly spared world further where
  rest := by
    conv_lhs => rw [second.rest, first.rest]
  size := second.size.trans first.size
  spares id isSpared := (second.spares id isSpared).trans (first.spares id isSpared)

theorem modifyContext {id : ContextId} (notSpared : ¬spared id) (world : World)
    (change : Context → Context) : ReleasesOnly spared world (world.modifyContext id change) where
  rest := rfl
  size := Arena.size_modify ..
  spares _ isSpared :=
    Arena.get_modify_of_ne _ _ fun same => notSpared (same ▸ isSpared)

theorem releaseHooks (id : ContextId) (world : World) (adapters : List AdapterId) :
    ReleasesOnly spared world (adapters.foldl (World.releaseHook id) world) := by
  induction adapters generalizing world with
  | nil => exact .refl world
  | cons adapter rest ih =>
      have hook : ReleasesOnly spared world (world.releaseHook id adapter) :=
        ⟨rfl, rfl, fun _ _ => rfl⟩
      exact hook.trans (ih _)

theorem releaseNow {id : ContextId} (notSpared : ¬spared id) (world : World) :
    ReleasesOnly spared world (world.releaseNow id) :=
  (modifyContext notSpared world _).trans
    ((releaseHooks id _ _).trans (modifyContext notSpared _ _))

theorem dropContext {id : ContextId} (notSpared : ¬spared id) (world : World) :
    ReleasesOnly spared world (world.dropContext id) := by
  unfold World.dropContext
  split
  · exact .refl world
  · exact releaseNow notSpared world

/-- What is held is spared. -/
theorem releaseUnheld (world : World) :
    ReleasesOnly (· ∈ world.heldContexts) world world.releaseUnheld := by
  have drops (ids : List ContextId) (unheld : ∀ id ∈ ids, id ∉ world.heldContexts)
      (start : World) :
      ReleasesOnly (· ∈ world.heldContexts) start (ids.foldl World.dropContext start) := by
    induction ids generalizing start with
    | nil => exact .refl start
    | cons id rest ih =>
        have first : ReleasesOnly (· ∈ world.heldContexts) start (start.dropContext id) :=
          dropContext (unheld id (by simp)) start
        exact first.trans (ih (fun other member => unheld other (by simp [member])) _)
  apply drops
  intro id member
  simpa using (List.mem_filter.1 member).2

end ReleasesOnly

end World

end DocumentHost
