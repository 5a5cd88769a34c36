import DocumentHost.Host.World

/-!
# Evaluating operations

Carried out in a state, an operation of a host gives an outcome and the state that it
leaves, whether it failed or not.  The equations here say so for each way in which
operations are built.
-/

namespace DocumentHost

namespace HostM

variable {ε ε' α β : Type}

/-- The outcome of an operation in a state, and the state behind it. -/
def eval (action : HostM ε α) (world : World) : Except ε α × World :=
  action.run.run world

/-- Operations are told apart by what they do in a state. -/
theorem ext_eval {first second : HostM ε α}
    (same : ∀ world, first.eval world = second.eval world) : first = second :=
  funext same

@[simp]
theorem eval_pure (value : α) (world : World) :
    (pure value : HostM ε α).eval world = (.ok value, world) :=
  rfl

@[simp]
theorem eval_throw (error : ε) (world : World) :
    (throw error : HostM ε α).eval world = (.error error, world) :=
  rfl

@[simp]
theorem eval_get (world : World) : (get : HostM ε World).eval world = (.ok world, world) :=
  rfl

@[simp]
theorem eval_modify (change : World → World) (world : World) :
    (modify change : HostM ε Unit).eval world = (.ok (), change world) :=
  rfl

/-- An operation that goes on with the value of a first one. -/
theorem eval_bind (action : HostM ε α) (next : α → HostM ε β) (world : World) :
    (action >>= next).eval world =
      match action.eval world with
      | (.ok value, between) => (next value).eval between
      | (.error error, behind) => (.error error, behind) := by
  change StateT.run ((action >>= next).run) world = _
  rw [ExceptT.run_bind, StateT.run_bind]
  rcases shape : StateT.run action.run world with ⟨_ | _, between⟩
  · simp only [eval, shape]
    rfl
  · simp only [eval, shape]
    rfl

theorem eval_bind_of_ok {action : HostM ε α} {next : α → HostM ε β} {world between : World}
    {value : α} (first : action.eval world = (.ok value, between)) :
    (action >>= next).eval world = (next value).eval between := by
  rw [eval_bind, first]

theorem eval_bind_of_error {action : HostM ε α} {next : α → HostM ε β} {world behind : World}
    {error : ε} (first : action.eval world = (.error error, behind)) :
    (action >>= next).eval world = (.error error, behind) := by
  rw [eval_bind, first]

/-- A composed operation succeeds if both of its parts do. -/
theorem eval_bind_eq_ok_iff {action : HostM ε α} {next : α → HostM ε β} {world behind : World}
    {result : β} :
    (action >>= next).eval world = (.ok result, behind) ↔
      ∃ value between, action.eval world = (.ok value, between) ∧
        (next value).eval between = (.ok result, behind) := by
  rw [eval_bind]
  rcases action.eval world with ⟨error | value, between⟩
  · simp
  · constructor
    · intro second
      exact ⟨value, between, rfl, second⟩
    · rintro ⟨_, _, equal, second⟩
      cases equal
      exact second

/-- A composed operation fails if its first part does, or else its second. -/
theorem eval_bind_eq_error_iff {action : HostM ε α} {next : α → HostM ε β}
    {world behind : World} {error : ε} :
    (action >>= next).eval world = (.error error, behind) ↔
      action.eval world = (.error error, behind) ∨
        ∃ value between, action.eval world = (.ok value, between) ∧
          (next value).eval between = (.error error, behind) := by
  rw [eval_bind]
  rcases action.eval world with ⟨first | value, between⟩
  · simp
  · constructor
    · intro second
      exact .inr ⟨value, between, rfl, second⟩
    · rintro (first | ⟨_, _, equal, second⟩)
      · cases first
      · cases equal
        exact second

@[simp]
theorem eval_convert (rephrase : ε → ε') (action : HostM ε α) (world : World) :
    (action.convert rephrase).eval world =
      ((action.eval world).1.mapError rephrase, (action.eval world).2) := by
  change StateT.run (Except.mapError rephrase <$> action.run) world = _
  rw [StateT.run_map]
  rfl

theorem eval_convert_of_ok {rephrase : ε → ε'} {action : HostM ε α} {world behind : World}
    {value : α} (succeeded : action.eval world = (.ok value, behind)) :
    (action.convert rephrase).eval world = (.ok value, behind) := by
  rw [eval_convert, succeeded]
  rfl

theorem eval_convert_of_error {rephrase : ε → ε'} {action : HostM ε α} {world behind : World}
    {error : ε} (failed : action.eval world = (.error error, behind)) :
    (action.convert rephrase).eval world = (.error (rephrase error), behind) := by
  rw [eval_convert, failed]
  rfl

theorem eval_of_convert_ok {rephrase : ε → ε'} {action : HostM ε α} {world behind : World}
    {value : α} (succeeded : (action.convert rephrase).eval world = (.ok value, behind)) :
    action.eval world = (.ok value, behind) := by
  rw [eval_convert] at succeeded
  rcases evaluated : action.eval world with ⟨error | found, after⟩
  all_goals
    rw [evaluated] at succeeded
    cases succeeded
  rfl

/-- A failure can be rephrased where it occurs. -/
theorem convert_bind (rephrase : ε → ε') (action : HostM ε α) (next : α → HostM ε β) :
    (action >>= next).convert rephrase =
      action.convert rephrase >>= fun value => (next value).convert rephrase := by
  apply ext_eval
  intro world
  rw [eval_convert, eval_bind, eval_bind, eval_convert]
  rcases action.eval world with ⟨_ | value, behind⟩
  · rfl
  · exact (eval_convert rephrase (next value) behind).symm

@[simp]
theorem eval_ofExcept (outcome : Except ε α) (world : World) :
    (ofExcept outcome).eval world = (outcome, world) := by
  cases outcome <;> rfl

@[simp]
theorem eval_attempt (action : HostM ε α) (world : World) :
    (action.attempt : HostM ε' (Except ε α)).eval world =
      (.ok (action.eval world).1, (action.eval world).2) :=
  rfl

@[simp]
theorem eval_ofReported (work : Reported ε α) (world : World) :
    (ofReported work).eval world = (work.outcome, world.noteAll work.reports) := by
  rw [ofReported, eval_bind_of_ok (eval_modify _ _), eval_ofExcept]

@[simp]
theorem eval_readClock (world : World) :
    (readClock : HostM ε Instant).eval world = (.ok world.clock, world.tick) :=
  rfl

theorem eval_ite (condition : Prop) [Decidable condition] (first second : HostM ε α)
    (world : World) :
    (if condition then first else second).eval world =
      if condition then first.eval world else second.eval world := by
  split <;> rfl

end HostM

end DocumentHost
