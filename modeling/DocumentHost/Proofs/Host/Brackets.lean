import DocumentHost.Host.Execute
import DocumentHost.Proofs.Host.Evaluation

/-!
# Operations within brackets

Some operations are carried out while more is held, while a context is current, or as one
more include.  Each of these brackets prepares the state, and puts it back however the
operation ends.
-/

namespace DocumentHost

namespace World

/-- The state in which an operation runs for which more is held. -/
def holdingMore (world : World) (more : Holdings) : World :=
  { world with holdings := more.union world.holdings }

/-- The state in which an operation runs while a context is current.  The context before
is held meanwhile. -/
def entering (world : World) (context : ContextId) : World :=
  { world with
    current := some context
    holdings := Holdings.union { contexts := world.current.toList } world.holdings }

/-- The state behind such an operation, given the state in front of it. -/
def leaving (world before : World) : World :=
  { world with current := before.current, holdings := before.holdings }

end World

namespace HostM

variable {ε α : Type}

theorem eval_holding (more : Holdings) (action : HostM ε α) (world : World) :
    (holding more action).eval world =
      let (outcome, behind) := action.eval (world.holdingMore more)
      (outcome, { behind with holdings := world.holdings }) := by
  rcases inside : action.eval (world.holdingMore more) with ⟨_ | _, behind⟩
  all_goals
    change HostM.eval (_ >>= _) _ = _
    rw [eval_bind_of_ok (eval_get _), eval_bind_of_ok (eval_modify _ _),
      eval_bind_of_ok (eval_attempt _ _), eval_bind_of_ok (eval_modify _ _), eval_ofExcept]
    change _ = (_, _)
    rw [← World.holdingMore, inside]

theorem eval_keeping (more : Holdings) (action : HostM ε α) (world : World) :
    (keeping more action).eval world =
      let (outcome, behind) := action.eval (world.holdingMore more)
      (outcome, { behind with holdings := world.holdings }.releaseUnheld) := by
  rw [keeping, eval_bind_of_ok (eval_attempt _ _), eval_bind_of_ok (eval_modify _ _),
    eval_ofExcept, eval_holding]

theorem eval_withCurrent (context : ContextId) (action : HostM ε α) (world : World) :
    (withCurrent context action).eval world =
      let (outcome, behind) := action.eval (world.entering context)
      (outcome, behind.leaving world) := by
  have before : (replaceCurrent (some context) : HostM ε _).eval world =
      (.ok world.current, { world with current := some context }) := rfl
  rw [withCurrent, eval_bind_of_ok before, eval_bind_of_ok (eval_attempt _ _), eval_holding]
  have after (outcome : Except ε α) (behind : World) :
      (replaceCurrent world.current >>= fun _ => ofExcept outcome : HostM ε α).eval behind =
        (outcome, { behind with current := world.current }) := by
    cases outcome <;> rfl
  exact after _ _

theorem eval_asInclude (name : String) (action : HostM ExecutionError α) (world : World) :
    (asInclude name action).eval world =
      if includeLimit < world.includeDepth + 1 then
        (.error (.ofDocument (.dependencyLoop name)), world)
      else
        let (outcome, behind) :=
          action.eval { world with includeDepth := world.includeDepth + 1 }
        (outcome, { behind with includeDepth := behind.includeDepth - 1 }) := by
  rw [asInclude, eval_bind_of_ok (eval_get _)]
  by_cases tooDeep : includeLimit < world.includeDepth + 1
  · rw [if_pos tooDeep, if_pos tooDeep]
    rfl
  · rw [if_neg tooDeep, if_neg tooDeep]
    dsimp only
    rw [eval_bind_of_ok (eval_modify _ _), eval_bind_of_ok (eval_attempt _ _),
      eval_bind_of_ok (eval_modify _ _), eval_ofExcept]

theorem eval_onContext (id : ContextId)
    (operation : Context → Except ContextError (α × Context)) (world : World) :
    (onContext id operation).eval world =
      match operation (world.contexts.get id) with
      | .ok (value, changed) => (.ok value, world.modifyContext id fun _ => changed)
      | .error error => (.error error, world) := by
  rw [onContext, eval_bind_of_ok (eval_get _)]
  cases operation (world.contexts.get id) <;> rfl

end HostM

/-- Put back what was found under the name of a container. -/
def restoreContainer (name : String) (previous : Option Service) (context : ContextId) :
    HostM ContextError (Option Service) :=
  match previous with
  | some service => onContext context (Context.setService name service)
  | none => onContext context (Context.removeService name)

/-- An operation with a container, where the container can be installed. -/
theorem HostM.eval_withContainer {α : Type} {name : String} {container : Service}
    {context : ContextId} {action : HostM ExecutionError α} {world installed : World}
    {previous : Option Service}
    (succeeded : (inContext context (Context.setService name container)).eval world =
      (.ok previous, installed)) :
    (withContainer name (some container) context action).eval world =
      let (outcome, behind) := action.eval installed
      (outcome, ((restoreContainer name previous context).eval behind).2) := by
  simp only [withContainer]
  rw [eval_bind_of_ok succeeded, eval_bind_of_ok (eval_attempt _ _)]
  have restored (outcome : Except ExecutionError α) (behind : World) :
      ((restoreContainer name previous context).attempt >>= fun _ =>
          ofExcept outcome : HostM ExecutionError α).eval behind =
        (outcome, ((restoreContainer name previous context).eval behind).2) := by
    rw [eval_bind_of_ok (eval_attempt _ _), eval_ofExcept]
  exact restored _ _

end DocumentHost
