import DocumentHost.Proofs.Context.Operations
import DocumentHost.Proofs.Host.Brackets
import DocumentHost.Proofs.Host.Releasing

/-!
# Binding and entering, case by case

What it comes to when a context is bound to an executable under a key, when a bound context
is entered, and when it is released: one equation for each way it can go.
-/

namespace DocumentHost

/-- A context that is bound to an executable under a key. -/
structure Bond where
  executable : ExecutableId
  key : String
  context : ContextId
deriving DecidableEq

namespace World

/-- The context that can be entered under a key. -/
def bound? (world : World) (executable : ExecutableId) (key : String) : Option ContextId :=
  (world.executables.get executable).enterable.get? key

/-- The state behind a binding. -/
def bind (world : World) (bond : Bond) : World :=
  (world.modifyContext bond.context fun context =>
      { context with enterableFor := some bond.executable, frozen := true }).modifyExecutable
    bond.executable fun bound =>
      { bound with enterable := bound.enterable.insert bond.key bond.context }

/-- The state behind the removal of a binding. -/
def unbind (world : World) (executable : ExecutableId) (key : String) : World :=
  world.modifyExecutable executable fun bound =>
    { bound with enterable := bound.enterable.erase key }

end World

section Binding

variable {executable : ExecutableId} {key : String} {context : ContextId} {world after : World}
  {container : Option Service} {controller : Option Controller}

/-- When the key is taken, nothing is done. -/
theorem eval_bindEnterable_of_taken (taken : (world.bound? executable key).isSome = true) :
    (bindEnterable executable key context container controller).eval world =
      (.ok false, world) := by
  rw [World.bound?] at taken
  rw [bindEnterable, HostM.eval_bind_of_ok (HostM.eval_get _)]
  dsimp only
  rw [if_pos taken]
  rfl

/-- Nor is anything done when the context is bound. -/
theorem eval_bindEnterable_of_bound (free : world.bound? executable key = none)
    (bound : (world.contexts.get context).enterableFor.isSome = true) :
    (bindEnterable executable key context container controller).eval world =
      (.error (.ofContext .alreadyEnterable), world) := by
  rw [World.bound?] at free
  rw [bindEnterable, HostM.eval_bind_of_ok (HostM.eval_get _)]
  dsimp only
  rw [if_neg (by simp [free]), if_pos bound]
  rfl

/-- An execution that fails fails the binding. -/
theorem eval_bindEnterable_of_failed (free : world.bound? executable key = none)
    (unbound : (world.contexts.get context).enterableFor = none) {error : ExecutionError}
    (failed : (execute executable context container controller).eval world =
      (.error error, after)) :
    (bindEnterable executable key context container controller).eval world =
      (.error error, after) := by
  rw [World.bound?] at free
  rw [bindEnterable, HostM.eval_bind_of_ok (HostM.eval_get _)]
  dsimp only
  rw [if_neg (by simp [free]), if_neg (by simp [unbound]), HostM.eval_bind_of_error failed]

/-- After the execution key and context are looked at again. -/
theorem eval_bindEnterable_of_executed (free : world.bound? executable key = none)
    (unbound : (world.contexts.get context).enterableFor = none)
    (executed : (execute executable context container controller).eval world =
      (.ok (), after)) :
    (bindEnterable executable key context container controller).eval world =
      if (after.bound? executable key).isSome then (.ok false, after)
      else if (after.contexts.get context).released then (.error (.ofContext .released), after)
      else if (after.contexts.get context).enterableFor.isSome then
        (.error (.ofContext .alreadyEnterable), after)
      else (.ok true, after.bind ⟨executable, key, context⟩) := by
  rw [World.bound?] at free
  rw [bindEnterable, HostM.eval_bind_of_ok (HostM.eval_get _)]
  dsimp only
  rw [if_neg (by simp [free]), if_neg (by simp [unbound]), HostM.eval_bind_of_ok executed,
    HostM.eval_bind_of_ok (HostM.eval_get _), World.bound?]
  by_cases taken : ((after.executables.get executable).enterable.get? key).isSome = true
  · rw [if_pos taken, if_pos taken]
    rfl
  rw [if_neg taken, if_neg taken, HostM.eval_bind, inContext, HostM.eval_convert,
    HostM.eval_onContext, Context.bindEnterable_eq]
  by_cases released : (after.contexts.get context).released = true
  · rw [if_pos released, if_pos released]
    rfl
  rw [if_neg released, if_neg released]
  by_cases already : (after.contexts.get context).enterableFor.isSome = true
  · rw [if_pos already, if_pos already]
    rfl
  · rw [if_neg already, if_neg already, World.bind, World.modifyContext,
      ← Arena.modify_const_get]
    rfl

variable {entry : String} {arguments : List Json}

theorem eval_enter_of_unbound (free : world.bound? executable key = none) :
    (enter executable key entry arguments).eval world =
      (.error (.ofContext (.notEnterable key)), world) := by
  rw [World.bound?] at free
  rw [enter, HostM.eval_bind_of_ok (HostM.eval_get _)]
  dsimp only
  rw [free]
  rfl

/-- The context that is entered is the one under the key, if it is bound to the executable. -/
theorem eval_enter_of_bound (bound : world.bound? executable key = some context)
    (own : (world.contexts.get context).enterableFor = some executable) :
    (enter executable key entry arguments).eval world =
      (do
        let value ← enterContext executable context entry arguments
        noteUse executable
        return value : HostM ExecutionError Json).eval world := by
  rw [World.bound?] at bound
  rw [enter, HostM.eval_bind_of_ok (HostM.eval_get _)]
  dsimp only
  rw [bound]
  dsimp only
  rw [if_neg (by simp [own])]

theorem eval_releaseBound_of_unbound (free : world.bound? executable key = none) :
    (releaseBound executable key).eval world = (.ok false, world) := by
  rw [World.bound?] at free
  rw [releaseBound, HostM.eval_bind_of_ok (HostM.eval_get _), free]
  rfl

/-- A key that was found is free afterwards, also when the context cannot be released. -/
theorem eval_releaseBound_of_bound (bound : world.bound? executable key = some context) :
    (releaseBound executable key).eval world =
      match (release context).eval (world.unbind executable key) with
      | (.ok _, after) => (.ok true, after)
      | (.error error, after) => (.error (.ofContext error), after) := by
  rw [World.bound?] at bound
  rw [releaseBound, HostM.eval_bind_of_ok (HostM.eval_get _), bound]
  dsimp only
  rw [HostM.eval_bind_of_ok (HostM.eval_modify _ _), HostM.eval_bind, HostM.eval_convert,
    World.unbind]
  generalize (release context).eval _ = released
  obtain ⟨error | value, after⟩ := released <;> rfl

end Binding

end DocumentHost
