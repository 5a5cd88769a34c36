import DocumentHost.Script

/-!
# Laws of scripts

Scripts compose like any other programs, and a script may be limited to requests of a
kind, none of which it survives when they fail.  Whatever is composed of scripts that are
limited so is limited so as well.
-/

namespace DocumentHost.Script

variable {α β γ : Type}

/-! ## Composition -/

theorem bind_assoc (script : Script α) (next : α → Script β) (further : β → Script γ) :
    (script >>= next) >>= further = script >>= fun value => next value >>= further := by
  change (script.bind next).bind further = script.bind fun value => (next value).bind further
  induction script with
  | done outcome => cases outcome <;> rfl
  | ask request continuation ih =>
      simp only [bind]
      congr 1
      funext reply
      exact ih reply

@[simp]
theorem pure_bind (value : α) (next : α → Script β) :
    (pure value : Script α) >>= next = next value :=
  rfl

@[simp]
theorem bind_pure (script : Script α) : (script >>= fun value => pure value) = script := by
  change script.bind (fun value => .done (.ok value)) = script
  induction script with
  | done outcome => cases outcome <;> rfl
  | ask request continuation ih =>
      simp only [bind]
      congr 1
      funext reply
      exact ih reply

/-! ## Limited requests -/

/-- A script makes only requests of a kind, whatever the replies, and ends with the
failure of a request that fails. -/
inductive Asks (allowed : Request → Prop) : Script α → Prop where
  | done (outcome : Except ExecutionError α) : Asks allowed (.done outcome)
  | ask {request : Request} {next : Except ExecutionError request.Reply → Script α}
      (isAllowed : allowed request) (stops : ∀ error, next (.error error) = .done (.error error))
      (further : ∀ reply, Asks allowed (next reply)) : Asks allowed (.ask request next)

namespace Asks

variable {allowed : Request → Prop}

theorem pure (value : α) : Asks allowed (pure value : Script α) :=
  .done _

theorem fail (error : ExecutionError) : Asks allowed (fail error : Script α) :=
  .done _

theorem request {wanted : Request} (isAllowed : allowed wanted) :
    Asks allowed (request wanted) :=
  .ask isAllowed (fun _ => rfl) fun reply => .done reply

theorem bind {script : Script α} {next : α → Script β} (first : Asks allowed script)
    (further : ∀ value, Asks allowed (next value)) : Asks allowed (script >>= next) := by
  change Asks allowed (script.bind next)
  induction first with
  | done outcome =>
      cases outcome with
      | ok value => exact further value
      | error error => exact .done _
  | ask isAllowed stops _ ih =>
      refine .ask isAllowed ?_ ih
      intro error
      rw [stops]
      rfl

theorem mono {more : Request → Prop} (widens : ∀ request, allowed request → more request)
    {script : Script α} (asks : Asks allowed script) : Asks more script := by
  induction asks with
  | done outcome => exact .done outcome
  | ask isAllowed stops _ ih => exact .ask (widens _ isAllowed) stops ih

end Asks

end DocumentHost.Script
