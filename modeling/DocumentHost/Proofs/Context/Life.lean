import DocumentHost.Mini.Language
import DocumentHost.Proofs.Context.Course

/-!
# The life of a context

However a host is used, the marks of a context are only ever set, a frozen context keeps its
attributes, services and sinks, a released one answers to nothing, and every adapter that was
recorded in a context is told once that the context is released.
-/

namespace DocumentHost

namespace World

/-- One use of a host, however it ends.  Programs are scripts, and a controller does to
contexts what anybody may do to them. -/
inductive Uses (world : World) : World → Prop where
  | operate (context : ContextId) (operation : Context.Operation) :
      Uses world ((onContext context operation.run).eval world).2
  | write (context : ContextId) (stream : Stream) (text : String) :
      Uses world ((writeText context stream text).eval world).2
  | flush (context : ContextId) : Uses world ((flushOutputs context).eval world).2
  | release (context : ContextId) : Uses world ((DocumentHost.release context).eval world).2
  | execute (executable : ExecutableId) (context : ContextId) (container : Option Service)
      (controller : Option Controller)
      (controlled : ∀ present, controller = some present → present.Keeps Moves context) :
      Uses world ((execute executable context container controller).eval world).2
  | run {α : Type} (executable : ExecutableId) (context : ContextId) (script : Script α) :
      Uses world ((runFor executable context script).eval world).2
  | includeNamed (executable : ExecutableId) (name : String) (context : ContextId) :
      Uses world ((includeDocument executable name context).eval world).2
  | enterContext (executable : ExecutableId) (context : ContextId) (entry : String)
      (arguments : List Json) :
      Uses world ((enterContext executable context entry arguments).eval world).2
  | enter (executable : ExecutableId) (key entry : String) (arguments : List Json) :
      Uses world ((enter executable key entry arguments).eval world).2
  | makeEnterable (executable : ExecutableId) (key : String) (context : ContextId)
      (container : Option Service) (controller : Option Controller)
      (controlled : ∀ present, controller = some present → present.Keeps Moves context) :
      Uses world ((bindEnterable executable key context container controller).eval world).2
  | releaseEnterable (executable : ExecutableId) (key : String) :
      Uses world ((releaseBound executable key).eval world).2
  | makeContext (output errorOutput : SinkId) :
      Uses world ((newContext output errorOutput : HostM Empty ContextId).eval world).2
  | compile (setting : Setting) (document : Document) :
      Uses world ((newExecutable setting document).eval world).2
  | create (setting : Setting) (name : String) :
      Uses world ((obtainExecutable setting name).eval world).2
  | fetch (name : String) : Uses world ((fetchDocument name).eval world).2
  | list : Uses world (listDocuments.eval world).2
  | put (name text tag : String) :
      Uses world ((putDocument name text tag : HostM Empty _).eval world).2
  | seed (name text tag : String) (form : Option (String × ExecutableId)) :
      Uses world ((seedDocument name text tag form : HostM Empty _).eval world).2
  /-- Those outside hold from now on what is in a list. -/
  | letGo (held : Holdings) : Uses world { world with holdings := held }.reclaim
  | beside {after : World} (undisturbed : Undisturbed world after) : Uses world after

variable {world after : World} {id : ContextId}

theorem Uses.moves (uses : Uses world after) : Moves world after := by
  have heedless := Moves.heedless
  have executing := heedless.executing
  have documenting := heedless.documenting
  cases uses with
  | operate context operation => exact executing.tolerant.onContext context operation world
  | write context stream text => exact executing.tolerant.writeText context stream text world
  | flush context => exact executing.tolerant.flushOutputs context world
  | release context => exact executing.tolerant.release context world
  | execute executable context container controller controlled =>
      exact executing.execute executable context container controlled world
  | run executable context script => exact executing.runFor executable context script world
  | includeNamed executable name context =>
      exact executing.includeWithin _ executable name context world
  | enterContext executable context entry arguments =>
      exact executing.enterContext executable context entry arguments world
  | enter executable key entry arguments =>
      exact executing.enter executable key entry arguments world
  | makeEnterable executable key context container controller controlled =>
      exact Moves.bindEnterable executable key context container controlled world
  | releaseEnterable executable key => exact Moves.releaseBound executable key world
  | makeContext output errorOutput => exact ⟨_, (Move.make output errorOutput).course⟩
  | compile setting document =>
      exact executing.tolerant.newExecutable (fun _ => heedless.plantInFlow document _) setting
        world
  | create setting name => exact executing.obtains setting name world
  | fetch name => exact executing.fetch name world
  | list => exact Moves.lasting.listDocuments executing.fetch world
  | put name text tag => exact documenting.putDocument name text tag world
  | seed name text tag form => exact documenting.seedDocument name text tag form world
  | letGo held =>
      have lets : Moves world { world with holdings := held } := .beside (.of_eq rfl rfl rfl)
      exact Moves.lasting.trans lets (heedless.reclaim _)
  | beside undisturbed => exact .beside undisturbed

/-! ## What contexts answer -/

/-- What a frozen context permits: it is read as before, and written to, and that is all. -/
structure OnlyReads (world : World) (id : ContextId) : Prop where
  mutations : ∀ operation : Context.Operation, operation.mutates = true →
    (onContext id operation.run).eval world = (.error .frozen, world)
  readings : ∀ operation : Context.Operation, operation.reads = true →
    (onContext id operation.run).eval world =
      (.ok (operation.answer (world.contexts.get id)), world)
  writes : ∀ stream text, (writeText id stream text).eval world =
    match (world.sinks.get ((world.contexts.get id).sink stream)).write text with
    | .ok sink => (.ok (), { world with
        sinks := world.sinks.modify ((world.contexts.get id).sink stream) fun _ => sink })
    | .error reason => (.error (.output reason), world)
  flushes : (flushOutputs id).eval world =
    match (world.sinks.get (world.contexts.get id).output).flush with
    | .ok _ =>
        (((world.sinks.get (world.contexts.get id).errorOutput).flush).mapError .output, world)
    | .error reason => (.error (.output reason), world)

/-- What a released context answers, whatever is asked of it. -/
structure Silent (world : World) (id : ContextId) : Prop where
  operations : ∀ operation : Context.Operation,
    (onContext id operation.run).eval world = (.error .released, world)
  binding : ∀ executable,
    (onContext id (Context.bindEnterable executable)).eval world = (.error .released, world)
  writes : ∀ stream text, (writeText id stream text).eval world = (.error .released, world)
  flushes : (flushOutputs id).eval world = (.error .released, world)
  release : (DocumentHost.release id).eval world = (.error .alreadyReleased, world)
  execution : ∀ executable container controller,
    (execute executable id container controller).eval world =
      (.error (.ofContext .released), world)
  entering : ∀ executable entry arguments,
    (enterContext executable id entry arguments).eval world =
      (.error (.ofContext .released), world)
  entry : ∀ executable key entry arguments, world.bound? executable key = some id →
    (world.contexts.get id).enterableFor = some executable →
      (enter executable key entry arguments).eval world = (.error (.ofContext .released), world)

theorem eval_onContext_of_error {α : Type}
    {operation : Context → Except ContextError (α × Context)} {error : ContextError}
    (refused : operation (world.contexts.get id) = .error error) :
    (onContext id operation).eval world = (.error error, world) := by
  rw [HostM.eval_onContext, refused]

theorem eval_operate_of_unreleased (unreleased : (world.contexts.get id).released = false)
    (operation : Context.Operation) (sparing : operation.mutates = false) :
    (onContext id operation.run).eval world =
      (.ok (operation.answer (world.contexts.get id)),
        world.modifyContext id fun _ => operation.change (world.contexts.get id)) := by
  rw [HostM.eval_onContext, operation.run_of_unreleased unreleased sparing]

/-- What only looks leaves everything as it is. -/
theorem eval_read_of_unreleased (unreleased : (world.contexts.get id).released = false)
    (operation : Context.Operation) (reads : operation.reads = true) :
    (onContext id operation.run).eval world =
      (.ok (operation.answer (world.contexts.get id)), world) := by
  have sparing : operation.mutates = false := by
    cases operation <;> first | rfl | cases reads
  rw [eval_operate_of_unreleased unreleased operation sparing, operation.change_of_reads reads,
    world.modifyContext_get]

theorem eval_ensureOpen_of_released (released : (world.contexts.get id).released = true) :
    (HostM.ofExcept (world.contexts.get id).ensureOpen).eval world =
      (.error .released, world) := by
  rw [HostM.eval_ofExcept]
  exact congrArg (·, world) (if_pos released)

theorem eval_ensureOpen_of_unreleased (unreleased : (world.contexts.get id).released = false) :
    (HostM.ofExcept (world.contexts.get id).ensureOpen).eval world = (.ok (), world) := by
  rw [HostM.eval_ofExcept]
  exact congrArg (·, world) (if_neg (by simp [unreleased]))

theorem onlyReads_of_frozen (unreleased : (world.contexts.get id).released = false)
    (frozen : (world.contexts.get id).frozen = true) : world.OnlyReads id where
  mutations operation mutates :=
    eval_onContext_of_error (operation.run_of_frozen unreleased frozen mutates)
  readings operation reads := eval_read_of_unreleased unreleased operation reads
  writes stream text := by
    rw [writeText, HostM.eval_bind_of_ok (HostM.eval_get _),
      HostM.eval_bind_of_ok (eval_ensureOpen_of_unreleased unreleased)]
    cases (world.sinks.get ((world.contexts.get id).sink stream)).write text with
    | ok sink => rfl
    | error reason => rfl
  flushes := by
    rw [flushOutputs, HostM.eval_bind_of_ok (HostM.eval_get _),
      HostM.eval_bind_of_ok (eval_ensureOpen_of_unreleased unreleased), HostM.eval_bind,
      HostM.eval_ofExcept]
    cases (world.sinks.get (world.contexts.get id).output).flush with
    | error reason => rfl
    | ok value => exact HostM.eval_ofExcept _ world

theorem silent_of_released (orderly : (world.contexts.get id).Orderly)
    (released : (world.contexts.get id).released = true) : world.Silent id := by
  have entering (executable : ExecutableId) (entry : String) (arguments : List Json) :
      (enterContext executable id entry arguments).eval world =
        (.error (.ofContext .released), world) := by
    have refused : (onContext id Context.lastAdapter?).eval world = (.error .released, world) :=
      eval_onContext_of_error (Context.Operation.run_of_released released .lastAdapter?)
    exact HostM.eval_bind_of_error (HostM.eval_convert_of_error refused)
  refine ⟨fun operation => ?_, fun executable => ?_, fun stream text => ?_, ?_, ?_,
    fun executable container controller => ?_, entering, fun executable key entry arguments
      found own => ?_⟩
  · exact eval_onContext_of_error (operation.run_of_released released)
  · refine eval_onContext_of_error ?_
    rw [Context.bindEnterable_eq, if_pos released]
  · rw [writeText, HostM.eval_bind_of_ok (HostM.eval_get _)]
    exact HostM.eval_bind_of_error (eval_ensureOpen_of_released released)
  · rw [flushOutputs, HostM.eval_bind_of_ok (HostM.eval_get _)]
    exact HostM.eval_bind_of_error (eval_ensureOpen_of_released released)
  · rw [DocumentHost.release, HostM.eval_bind_of_ok (HostM.eval_get _),
      if_pos (orderly.releasing.trans released)]
    rfl
  · rw [execute, executeWith, HostM.eval_bind_of_ok (HostM.eval_get _), if_pos released]
    rfl
  · rw [eval_enter_of_bound found own, HostM.eval_bind_of_error (entering executable entry arguments)]

/-! ## The end of a life -/

theorem Move.contexts_size {added : List (ContextId × AdapterId)} (move : Move world added after) :
    world.contexts.size ≤ after.contexts.size := by
  cases move with
  | beside undisturbed => exact Nat.le_of_eq (by rw [undisturbed.contexts])
  | make output errorOutput => simp
  | operate known done => exact Nat.le_of_eq (Arena.size_modify ..).symm
  | bind known done => exact Nat.le_of_eq (Arena.size_modify ..).symm
  | release known unbegun =>
      rw [contexts_releaseNow]
      exact Nat.le_of_eq (Arena.size_modify ..).symm

theorem Moves.contexts_size (moves : Moves world after) :
    world.contexts.size ≤ after.contexts.size := by
  obtain ⟨added, course⟩ := moves
  induction course with
  | refl => exact Nat.le_refl _
  | tail _ move ih => exact Nat.le_trans ih move.contexts_size

theorem Moves.onwards (moves : Moves world after) (orderly : (world.contexts.get id).Orderly) :
    (after.contexts.get id).Orderly ∧ (world.contexts.get id).Onwards (after.contexts.get id) := by
  obtain ⟨added, course⟩ := moves
  exact course.onwards orderly

theorem released_of_dropContext (orderly : (world.contexts.get id).Orderly)
    (known : id.index < world.contexts.size) :
    ((world.dropContext id).contexts.get id).released = true := by
  unfold dropContext
  split
  · rename_i releasing
    exact orderly.releasing.symm.trans releasing
  · rw [contexts_releaseNow, Arena.get_modify_self _ _ known]
    rfl

/-- A context that nobody holds is released when that is noticed. -/
theorem released_of_unheld (orderly : (world.contexts.get id).Orderly)
    (known : id.index < world.contexts.size) (unheld : id ∉ world.heldContexts) :
    (world.releaseUnheld.contexts.get id).released = true := by
  have drops (ids : List ContextId) (member : id ∈ ids) (start : World)
      (orderly : (start.contexts.get id).Orderly) (known : id.index < start.contexts.size) :
      ((ids.foldl dropContext start).contexts.get id).released = true := by
    induction ids generalizing start with
    | nil => cases member
    | cons first rest ih =>
        have dropped := Moves.tolerant.dropContext start first
        have stillOrderly := (dropped.onwards orderly).1
        by_cases here : id = first
        · subst here
          have released := released_of_dropContext orderly known
          have later : Moves (start.dropContext id) (rest.foldl dropContext (start.dropContext id)) :=
            List.foldlRecOn rest dropContext (Moves.lasting.refl _) fun state moves other _ =>
              Moves.lasting.trans moves (Moves.tolerant.dropContext state other)
          rw [List.foldl_cons, (later.onwards stillOrderly).2.released released]
          exact released
        · exact ih ((List.mem_cons.1 member).resolve_left here) _ stillOrderly
            (Nat.lt_of_lt_of_le known dropped.contexts_size)
  refine drops _ (List.mem_filter.2 ⟨?_, by simpa using unheld⟩) world orderly known
  exact List.mem_map.2 ⟨id.index, List.mem_range.2 known, rfl⟩

/-! ## Programs -/

/-- A program is started only where its adapter has been recorded and the context is not
released: it makes no difference what it does elsewhere. -/
theorem walkSegments_eq_of_recorded {first second : Program → HostM ExecutionError Unit}
    {segments : List Segment} (documentName : String)
    (keeps : ∀ program (state : World),
      state.contexts.size ≤ ((first program).eval state).2.contexts.size)
    (alike : ∀ text tag position adapter program,
      Segment.program text tag position adapter program ∈ segments → ∀ state : World,
        (state.contexts.get id).released = false →
        adapter ∈ (state.contexts.get id).adapters →
          (first program).eval state = (second program).eval state)
    (known : id.index < world.contexts.size) :
    (walkSegments first documentName id segments).eval world =
      (walkSegments second documentName id segments).eval world := by
  induction segments generalizing world with
  | nil => rfl
  | cons segment rest ih =>
      have others {state : World} (known : id.index < state.contexts.size) :=
        ih (fun text tag position adapter program member =>
          alike text tag position adapter program (List.mem_cons_of_mem _ member)) known
      cases segment with
      | literal text position =>
          let frame (error : ExecutionError) := error.passedThrough ⟨documentName, position⟩
          let written : HostM ExecutionError Unit :=
            ((writeText id .output text).convert ExecutionError.ofContext).convert frame
          have moves : Moves world (written.eval world).2 :=
            Lasting.convert _ (Lasting.convert _ (Moves.tolerant.writeText id .output text)) world
          change (written >>= fun _ => walkSegments first documentName id rest).eval world =
            (written >>= fun _ => walkSegments second documentName id rest).eval world
          rw [HostM.eval_bind, HostM.eval_bind]
          rcases ended : written.eval world with ⟨error | ⟨⟩, between⟩
          · rfl
          · rw [ended] at moves
            exact others (Nat.lt_of_lt_of_le known moves.contexts_size)
      | program text tag position adapter program =>
          let frame (error : ExecutionError) := error.passedThrough ⟨documentName, position⟩
          let records : HostM ExecutionError Unit := inContext id (Context.addAdapter adapter)
          change (records >>= fun _ => (first program).convert frame >>= fun _ =>
              walkSegments first documentName id rest).eval world =
            (records >>= fun _ => (second program).convert frame >>= fun _ =>
              walkSegments second documentName id rest).eval world
          cases released : (world.contexts.get id).released with
          | true =>
              have refused : records.eval world = (.error (.ofContext .released), world) :=
                HostM.eval_convert_of_error (eval_onContext_of_error
                  (Context.Operation.run_of_released released (.addAdapter adapter)))
              rw [HostM.eval_bind_of_error refused, HostM.eval_bind_of_error refused]
          | false =>
              let recording : Context.Operation := .addAdapter adapter
              let recorded := world.modifyContext id fun _ =>
                recording.change (world.contexts.get id)
              have done : records.eval world = (.ok (), recorded) :=
                HostM.eval_convert_of_ok (eval_operate_of_unreleased released recording rfl)
              have there : recorded.contexts.get id = recording.change (world.contexts.get id) :=
                Arena.get_modify_self _ _ known
              have same : (first program).eval recorded = (second program).eval recorded := by
                refine alike text tag position adapter program (by simp) recorded ?_ ?_
                · rw [there]
                  exact released
                · rw [there, recording.adapters_of_change]
                  dsimp only [recording, Context.Operation.adds?]
                  split
                  · assumption
                  · simp
              have grows := keeps program recorded
              rw [HostM.eval_bind_of_ok done, HostM.eval_bind_of_ok done, HostM.eval_bind,
                HostM.eval_bind, HostM.eval_convert, HostM.eval_convert, ← same]
              rcases ended : (first program).eval recorded with ⟨error | ⟨⟩, between⟩
              · rfl
              · rw [ended] at grows
                refine others (Nat.lt_of_lt_of_le known (Nat.le_trans ?_ grows))
                exact Nat.le_of_eq (Arena.size_modify ..).symm

/-! ## Whole lives -/

/-- No context has been made yet, and so none has been released. -/
structure Untouched (world : World) : Prop where
  contexts : world.contexts.size = 0
  told : ∀ id, world.told id = []

theorem Untouched.get_eq (untouched : world.Untouched) (id : ContextId) :
    world.contexts.get id = default := by
  refine Arena.get_of_unknown _ ?_
  rw [untouched.contexts]
  exact Nat.not_lt_zero _

end World

open World

/-- Whatever a host goes through, and however its programs act on contexts: each use is a course
of moves.  At every point of a course, inside of runs as well, a context that can be entered is
frozen; what marks it has it keeps, a frozen one keeps its attributes, services and sinks as
well, and a released one everything; frozen contexts refuse what would change them and are read
and written to as before; released ones refuse everything; the adapters that have been recorded
in a context are those that are told of its release, each once, and none before; and a context
that nobody holds is released.  Programs are started only where their adapters have been
recorded. -/
theorem contexts_live_and_are_released {origin world : World}
    {added : List (ContextId × AdapterId)} (untouched : origin.Untouched)
    (course : Course origin added world) :
    (∀ after, Uses world after → Moves world after) ∧
    (∀ id, ((world.contexts.get id).enterableFor ≠ none →
        (world.contexts.get id).frozen = true) ∧
      (∀ after, Moves world after → (world.contexts.get id).Onwards (after.contexts.get id)) ∧
      ((world.contexts.get id).released = false → (world.contexts.get id).frozen = true →
        world.OnlyReads id) ∧
      ((world.contexts.get id).released = true → world.Silent id) ∧
      Accounts added world id ∧
      (id.index < world.contexts.size → id ∉ world.heldContexts →
        (world.releaseUnheld.contexts.get id).released = true)) ∧
    ∀ (first second : Program → HostM ExecutionError Unit) documentName id segments,
      id.index < world.contexts.size →
      (∀ program (state : World),
        state.contexts.size ≤ ((first program).eval state).2.contexts.size) →
      (∀ text tag position adapter program,
        Segment.program text tag position adapter program ∈ segments → ∀ state : World,
          (state.contexts.get id).released = false →
          adapter ∈ (state.contexts.get id).adapters →
            (first program).eval state = (second program).eval state) →
      (walkSegments first documentName id segments).eval world =
        (walkSegments second documentName id segments).eval world := by
  have orderly (id : ContextId) : (world.contexts.get id).Orderly := by
    refine (course.onwards ?_).1
    rw [untouched.get_eq]
    exact Context.orderly_default
  refine ⟨fun after uses => uses.moves, fun id => ⟨(orderly id).enterable, ?_, ?_, ?_, ?_, ?_⟩, ?_⟩
  · exact fun after moves => (moves.onwards (orderly id)).2
  · exact onlyReads_of_frozen
  · exact silent_of_released (orderly id)
  · have start : (origin.contexts.get id).Orderly := by
      rw [untouched.get_eq]
      exact Context.orderly_default
    have nothing : Accounts [] origin id := by
      have empty := untouched.get_eq id
      refine .of_unreleased (untouched.told id) ?_ fun adapter => ?_
      · rw [empty]
        rfl
      · rw [empty]
        exact iff_of_false List.not_mem_nil List.not_mem_nil
    exact course.accounts start nothing
  · exact released_of_unheld (orderly id)
  · intro first second documentName id segments known keeps alike
    exact walkSegments_eq_of_recorded documentName keeps alike known

/-- A document that freezes the context it is run in. -/
def freezingHost : World where
  toLanguages := .of [⟨Mini.adapter (.ofTag "Mini" "m"), true⟩] []
  executables := ⟨[{
    documentName := "x", partition := "", timestamp := ⟨0⟩, lastUsed := ⟨0⟩
    setting := { registry := ⟨0⟩, sourced := false, options := {} }
    segments := [.program "x" "m" .start ⟨0⟩ ⟨⟨[], .ok ()⟩, .request .freeze⟩] }]⟩
  sinks := ⟨[{}, {}]⟩

/-- The document is run in a new context. -/
def freezingRun : World :=
  ((execute ⟨0⟩ ⟨0⟩).eval ((newContext ⟨0⟩ ⟨1⟩ : HostM Empty ContextId).eval freezingHost).2).2

theorem contexts_live_and_are_released_freezing :
    freezingHost.Untouched ∧ freezingRun.OnlyReads ⟨0⟩ ∧
      ∃ added, Course freezingHost added freezingRun.releaseUnheld ∧
        freezingRun.releaseUnheld.Silent ⟨0⟩ ∧ freezingRun.releaseUnheld.told ⟨0⟩ = [⟨0⟩] ∧
        ∀ adapter, adapter = ⟨0⟩ ↔ ((⟨0⟩ : ContextId), adapter) ∈ added := by
  have untouched : freezingHost.Untouched := ⟨rfl, fun _ => rfl⟩
  have made : Moves freezingHost ((newContext ⟨0⟩ ⟨1⟩ : HostM Empty ContextId).eval freezingHost).2 :=
    (Uses.makeContext ⟨0⟩ ⟨1⟩).moves
  obtain ⟨added, course⟩ : Moves freezingHost freezingRun :=
    Moves.lasting.trans made (Uses.execute ⟨0⟩ ⟨0⟩ none none nofun).moves
  obtain ⟨-, lives, -⟩ := contexts_live_and_are_released untouched course
  obtain ⟨-, -, onlyReads, -, -, released⟩ := lives ⟨0⟩
  obtain ⟨more, ended⟩ := Moves.tolerant.releaseUnheld freezingRun
  obtain ⟨-, livesAfter, -⟩ := contexts_live_and_are_released untouched (course.trans ended)
  obtain ⟨-, -, -, silent, accounts, -⟩ := livesAfter ⟨0⟩
  have isReleased := released (by decide) (by decide)
  have told : freezingRun.releaseUnheld.told ⟨0⟩ = [⟨0⟩] := by rfl
  refine ⟨untouched, onlyReads (by rfl) (by rfl), _, course.trans ended, silent isReleased, told, ?_⟩
  intro adapter
  rw [← (accounts.released isReleased).2, told, List.mem_singleton]

end DocumentHost
