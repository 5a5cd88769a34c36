import DocumentHost.Proofs.Host.Changes

/-!
# The course of a host, as its contexts see it

Whatever is done with a host, its contexts go through moves of a few kinds: an operation, a
binding, a release, or nothing at all.  A course is a chain of moves, and it carries which
adapters have been recorded in which contexts on the way.  Compiling, running, including and
entering documents are courses, however they end.
-/

namespace DocumentHost

namespace World

/-- The adapters that have been told so far that a context is released, in order. -/
def told (world : World) (id : ContextId) : List AdapterId :=
  world.journal.filterMap fun event =>
    match event with
    | .note _ => none
    | .releaseHook context adapter => if context = id then some adapter else none

/-- Contexts stay as they are, adapters that are there remain, and none is told of a
release. -/
structure Undisturbed (world after : World) : Prop where
  contexts : after.contexts = world.contexts
  adapters : ∀ id, id.index < world.adapters.size → id.index < after.adapters.size ∧
    (after.adapters.get id).adapter = (world.adapters.get id).adapter
  told : ∀ id, after.told id = world.told id

/-- One move.  The list has the adapters that are recorded by it, each with its context. -/
inductive Move (world : World) : List (ContextId × AdapterId) → World → Prop where
  | beside {after : World} (undisturbed : world.Undisturbed after) : Move world [] after
  | make (output errorOutput : SinkId) :
      Move world [] { world with contexts := (world.contexts.add { output, errorOutput }).2 }
  | operate {id : ContextId} (known : id.index < world.contexts.size)
      {operation : Context.Operation} {value : operation.Value} {changed : Context}
      (done : operation.run (world.contexts.get id) = .ok (value, changed)) :
      Move world (operation.adds?.toList.map fun adapter => (id, adapter))
        (world.modifyContext id fun _ => changed)
  | bind {id : ContextId} (known : id.index < world.contexts.size) {executable : ExecutableId}
      {changed : Context}
      (done : Context.bindEnterable executable (world.contexts.get id) = .ok ((), changed)) :
      Move world [] (world.modifyContext id fun _ => changed)
  | release {id : ContextId} (known : id.index < world.contexts.size)
      (unbegun : (world.contexts.get id).releasing = false) :
      Move world [] (world.releaseNow id)

/-- A chain of moves, with all adapters that are recorded on the way. -/
inductive Course : World → List (ContextId × AdapterId) → World → Prop where
  | refl (world : World) : Course world [] world
  | tail {world between after : World} {added more : List (ContextId × AdapterId)}
      (course : Course world added between) (move : Move between more after) :
      Course world (added ++ more) after

/-- A state that some course leads to. -/
def Moves (world after : World) : Prop :=
  ∃ added, Course world added after

variable {world between after : World} {added more : List (ContextId × AdapterId)}

/-! ## What is told -/

theorem told_append_notes {reports : List String}
    (journal : after.journal = world.journal ++ reports.map .note) (id : ContextId) :
    after.told id = world.told id := by
  have notes : (reports.map Event.note).filterMap (fun event =>
      match event with
      | .note _ => none
      | .releaseHook context adapter => if context = id then some adapter else none) = [] := by
    rw [List.filterMap_eq_nil_iff]
    intro event member
    obtain ⟨text, -, rfl⟩ := List.mem_map.1 member
    rfl
  rw [told, journal, List.filterMap_append, notes, List.append_nil]
  rfl

theorem told_releaseHook (world : World) (context id : ContextId) (adapter : AdapterId) :
    (world.releaseHook context adapter).told id =
      world.told id ++ if context = id then [adapter] else [] := by
  let marked : World :=
    { world with journal := world.journal ++ [.releaseHook context adapter] }
  have reported : (world.releaseHook context adapter).told id = marked.told id :=
    told_append_notes rfl id
  rw [reported, told, told, List.filterMap_append]
  congr 1
  by_cases here : context = id
  · simp [here]
  · simp [here]

theorem told_releaseHooks (world : World) (context id : ContextId) (adapters : List AdapterId) :
    (adapters.foldl (releaseHook context) world).told id =
      world.told id ++ if context = id then adapters else [] := by
  induction adapters generalizing world with
  | nil => simp
  | cons adapter rest ih =>
      rw [List.foldl_cons, ih, told_releaseHook]
      split <;> simp

/-- A release tells the adapters of its context, in order. -/
theorem told_releaseNow (world : World) (context id : ContextId) :
    (world.releaseNow context).told id =
      world.told id ++ if context = id then (world.contexts.get context).adapters else [] :=
  told_releaseHooks _ context id _

theorem releaseHooks_spare (world : World) (id : ContextId) (adapters : List AdapterId) :
    (adapters.foldl (releaseHook id) world).contexts = world.contexts ∧
      (adapters.foldl (releaseHook id) world).adapters = world.adapters := by
  induction adapters generalizing world with
  | nil => exact ⟨rfl, rfl⟩
  | cons adapter rest ih => exact ih (world.releaseHook id adapter)

theorem contexts_releaseNow (world : World) (id : ContextId) :
    (world.releaseNow id).contexts = world.contexts.modify id Context.spent := by
  let begun := world.modifyContext id fun context =>
    { context with releasing := true, adapters := [] }
  have ended : (world.releaseNow id).contexts =
      ((world.contexts.get id).adapters.foldl (releaseHook id) begun).contexts.modify id
        fun context => { context with released := true } := rfl
  rw [ended, (releaseHooks_spare ..).1]
  exact Arena.modify_modify_self _ _ _ _

theorem adapters_releaseNow (world : World) (id : ContextId) :
    (world.releaseNow id).adapters = world.adapters :=
  (releaseHooks_spare _ id _).2

/-! ## What moves do -/

/-- A move changes one context at most, or makes one. -/
theorem Move.context_cases (move : Move world added after) (id : ContextId) :
    after.contexts.get id = world.contexts.get id ∨
      (¬id.index < world.contexts.size ∧
        ∃ output errorOutput, after.contexts.get id = { output, errorOutput }) ∨
      (∃ (operation : Context.Operation) (value : operation.Value),
        operation.run (world.contexts.get id) = .ok (value, after.contexts.get id)) ∨
      (∃ executable, Context.bindEnterable executable (world.contexts.get id) =
        .ok ((), after.contexts.get id)) ∨
      ((world.contexts.get id).releasing = false ∧
        after.contexts.get id = (world.contexts.get id).spent) := by
  cases move with
  | beside undisturbed => exact .inl (by rw [undisturbed.contexts])
  | make output errorOutput =>
      rw [Arena.get_add]
      split
      · rename_i new
        refine .inr (.inl ⟨?_, output, errorOutput, rfl⟩)
        rw [new]
        exact Nat.lt_irrefl _
      · exact .inl rfl
  | @operate place known operation value changed done =>
      rw [modifyContext, Arena.get_modify]
      split
      · rename_i here
        rw [here.1]
        exact .inr (.inr (.inl ⟨operation, value, done⟩))
      · exact .inl rfl
  | @bind place known executable changed done =>
      rw [modifyContext, Arena.get_modify]
      split
      · rename_i here
        rw [here.1]
        exact .inr (.inr (.inr (.inl ⟨executable, done⟩)))
      · exact .inl rfl
  | @release place known unbegun =>
      rw [contexts_releaseNow, Arena.get_modify]
      split
      · rename_i here
        rw [here.1]
        exact .inr (.inr (.inr (.inr ⟨unbegun, rfl⟩)))
      · exact .inl rfl

theorem Move.onwards (move : Move world added after) {id : ContextId}
    (orderly : (world.contexts.get id).Orderly) :
    (after.contexts.get id).Orderly ∧ (world.contexts.get id).Onwards (after.contexts.get id) := by
  rcases move.context_cases id with same | ⟨unknown, output, errorOutput, made⟩ |
    ⟨operation, value, done⟩ | ⟨executable, done⟩ | ⟨unbegun, spent⟩
  · rw [same]
    exact ⟨orderly, .refl _⟩
  · rw [made, Arena.get_of_unknown _ unknown]
    exact ⟨⟨nofun, rfl, List.nodup_nil, nofun⟩, ⟨nofun, nofun, nofun, nofun, nofun, nofun, nofun⟩⟩
  · exact ⟨orderly.operate done, .operate done⟩
  · exact ⟨orderly.bind done, .bind done⟩
  · rw [spent]
    exact ⟨orderly.release, .release (orderly.releasing.symm.trans unbegun)⟩

/-- By induction on the course. -/
theorem Course.onwards (course : Course world added after) {id : ContextId}
    (orderly : (world.contexts.get id).Orderly) :
    (after.contexts.get id).Orderly ∧ (world.contexts.get id).Onwards (after.contexts.get id) := by
  induction course with
  | refl => exact ⟨orderly, .refl _⟩
  | tail _ move ih =>
      obtain ⟨stillOrderly, further⟩ := ih
      obtain ⟨orderlyAfter, step⟩ := move.onwards stillOrderly
      exact ⟨orderlyAfter, further.trans step⟩

theorem Move.frozen (move : Move world added after) {id : ContextId}
    (frozen : (world.contexts.get id).frozen = true) : (after.contexts.get id).frozen = true := by
  rcases move.context_cases id with same | ⟨unknown, -⟩ | ⟨operation, value, done⟩ |
    ⟨executable, done⟩ | ⟨-, spent⟩
  · rwa [same]
  · rw [Arena.get_of_unknown _ unknown] at frozen
    cases frozen
  · obtain ⟨-, -, -, changed⟩ := Context.Operation.permitted_of_run done
    rw [changed]
    exact (operation.marks_of_change _).2.2.2 frozen
  · obtain ⟨-, -, changed⟩ := Context.permitted_of_bindEnterable done
    rw [changed]
  · rw [spent]
    exact frozen

/-- A frozen context stays frozen, whatever else is true of it.  By induction on the course. -/
theorem Course.frozen (course : Course world added after) {id : ContextId}
    (frozen : (world.contexts.get id).frozen = true) : (after.contexts.get id).frozen = true := by
  induction course with
  | refl => exact frozen
  | tail _ move ih => exact move.frozen ih

/-! ## The account of a context -/

/-- Until a context is released no adapter has been told, and the context lists those that have
been recorded in it.  When it has been released, those have been told, each of them once. -/
structure Accounts (added : List (ContextId × AdapterId)) (world : World) (id : ContextId) :
    Prop where
  unreleased : (world.contexts.get id).released = false →
    world.told id = [] ∧ ∀ adapter, adapter ∈ (world.contexts.get id).adapters ↔
      (id, adapter) ∈ added
  released : (world.contexts.get id).released = true →
    (world.told id).Nodup ∧ ∀ adapter, adapter ∈ world.told id ↔ (id, adapter) ∈ added

variable {id : ContextId}

/-- Nothing has been told, and the list is that of the adapters recorded. -/
theorem Accounts.of_unreleased (told : world.told id = [])
    (unreleased : (world.contexts.get id).released = false)
    (listed : ∀ adapter, adapter ∈ (world.contexts.get id).adapters ↔ (id, adapter) ∈ added) :
    Accounts added world id := by
  refine ⟨fun _ => ⟨told, listed⟩, fun released => ?_⟩
  rw [unreleased] at released
  cases released

/-- A move that has nothing to do with a context. -/
theorem Accounts.elsewhere (accounts : Accounts added world id)
    (same : after.contexts.get id = world.contexts.get id) (told : after.told id = world.told id)
    (others : ∀ adapter, (id, adapter) ∉ more) : Accounts (added ++ more) after id := by
  have listed (adapter : AdapterId) : (id, adapter) ∈ added ↔ (id, adapter) ∈ added ++ more := by
    rw [List.mem_append, or_iff_left (others adapter)]
  constructor
  · intro unreleased
    rw [same] at unreleased
    obtain ⟨untold, members⟩ := accounts.unreleased unreleased
    rw [same, told]
    exact ⟨untold, fun adapter => (members adapter).trans (listed adapter)⟩
  · intro released
    rw [same] at released
    obtain ⟨distinct, members⟩ := accounts.released released
    rw [told]
    exact ⟨distinct, fun adapter => (members adapter).trans (listed adapter)⟩

theorem Accounts.operate (accounts : Accounts added world id)
    (known : id.index < world.contexts.size) {operation : Context.Operation}
    {value : operation.Value} {changed : Context}
    (done : operation.run (world.contexts.get id) = .ok (value, changed)) :
    Accounts (added ++ operation.adds?.toList.map fun adapter => (id, adapter))
      (world.modifyContext id fun _ => changed) id := by
  obtain ⟨unreleased, -, -, rfl⟩ := Context.Operation.permitted_of_run done
  obtain ⟨told, listed⟩ := accounts.unreleased unreleased
  have here : (world.modifyContext id fun _ =>
      operation.change (world.contexts.get id)).contexts.get id =
        operation.change (world.contexts.get id) :=
    Arena.get_modify_self _ _ known
  refine .of_unreleased told ?_ fun adapter => ?_
  · rw [here, (operation.marks_of_change _).1, unreleased]
  · rw [here, operation.adapters_of_change, List.mem_append, ← listed]
    cases operation.adds? with
    | none => simp
    | some recorded =>
        by_cases before : recorded ∈ (world.contexts.get id).adapters
        · simpa [before] using fun same => same ▸ before
        · simp [before]

theorem Accounts.bind (accounts : Accounts added world id)
    (known : id.index < world.contexts.size) {executable : ExecutableId} {changed : Context}
    (done : Context.bindEnterable executable (world.contexts.get id) = .ok ((), changed)) :
    Accounts added (world.modifyContext id fun _ => changed) id := by
  obtain ⟨unreleased, -, rfl⟩ := Context.permitted_of_bindEnterable done
  obtain ⟨told, listed⟩ := accounts.unreleased unreleased
  have here := Arena.get_modify_self world.contexts (fun _ => { world.contexts.get id with
    enterableFor := some executable, frozen := true }) known
  refine .of_unreleased told ?_ fun adapter => ?_
  · rw [modifyContext, here]
    exact unreleased
  · rw [modifyContext, here]
    exact listed adapter

theorem Accounts.release (accounts : Accounts added world id)
    (orderly : (world.contexts.get id).Orderly) (known : id.index < world.contexts.size)
    (unbegun : (world.contexts.get id).releasing = false) :
    Accounts added (world.releaseNow id) id := by
  obtain ⟨untold, listed⟩ := accounts.unreleased (orderly.releasing.symm.trans unbegun)
  have told : (world.releaseNow id).told id = (world.contexts.get id).adapters := by
    rw [told_releaseNow, untold, if_pos rfl, List.nil_append]
  have here : (world.releaseNow id).contexts.get id = (world.contexts.get id).spent := by
    rw [contexts_releaseNow]
    exact Arena.get_modify_self _ _ known
  refine ⟨fun unreleased => ?_, fun _ => ?_⟩
  · rw [here] at unreleased
    cases unreleased
  · rw [told]
    exact ⟨orderly.distinct, listed⟩

theorem Move.accounts (move : Move world more after)
    (orderly : (world.contexts.get id).Orderly) (accounts : Accounts added world id) :
    Accounts (added ++ more) after id := by
  have nowhere (adapter : AdapterId) : (id, adapter) ∉ ([] : List (ContextId × AdapterId)) :=
    List.not_mem_nil
  cases move with
  | beside undisturbed =>
      exact accounts.elsewhere (by rw [undisturbed.contexts]) (undisturbed.told id) nowhere
  | make output errorOutput =>
      rw [List.append_nil]
      by_cases new : id = (world.contexts.add { output, errorOutput }).1
      · have absent : world.contexts.get id = default :=
          Arena.get_of_unknown _ (by rw [new]; exact Nat.lt_irrefl _)
        obtain ⟨told, listed⟩ := accounts.unreleased (by rw [absent]; rfl)
        rw [absent] at listed
        have made : (world.contexts.add { output, errorOutput }).2.get id =
            { output, errorOutput } := by
          rw [Arena.get_add, if_pos new]
        refine .of_unreleased told ?_ fun adapter => ?_
        · exact congrArg Context.released made
        · rw [made]
          exact listed adapter
      · have same : (world.contexts.add { output, errorOutput }).2.get id =
            world.contexts.get id := by
          rw [Arena.get_add, if_neg new]
        rw [← List.append_nil added]
        exact accounts.elsewhere same rfl nowhere
  | @operate place known operation value changed done =>
      by_cases here : id = place
      · subst here
        exact accounts.operate known done
      · refine accounts.elsewhere (Arena.get_modify_of_ne _ _ here) rfl fun adapter member => ?_
        obtain ⟨other, -, same⟩ := List.mem_map.1 member
        exact here (congrArg Prod.fst same).symm
  | @bind place known executable changed done =>
      by_cases here : id = place
      · subst here
        rw [List.append_nil]
        exact accounts.bind known done
      · exact accounts.elsewhere (Arena.get_modify_of_ne _ _ here) rfl nowhere
  | @release place known unbegun =>
      by_cases here : id = place
      · subst here
        rw [List.append_nil]
        exact accounts.release orderly known unbegun
      · refine accounts.elsewhere ?_ ?_ nowhere
        · rw [contexts_releaseNow]
          exact Arena.get_modify_of_ne _ _ here
        · rw [told_releaseNow, if_neg (Ne.symm here), List.append_nil]

/-- By induction on the course. -/
theorem Course.accounts {before : List (ContextId × AdapterId)}
    (course : Course world added after) (orderly : (world.contexts.get id).Orderly)
    (accounts : Accounts before world id) : Accounts (before ++ added) after id := by
  induction course with
  | refl => rwa [List.append_nil]
  | tail course move ih =>
      rw [← List.append_assoc]
      exact move.accounts (course.onwards orderly).1 ih

/-! ## What is a course -/

theorem Course.trans (first : Course world added between) (second : Course between more after) :
    Course world (added ++ more) after := by
  induction second with
  | refl => rwa [List.append_nil]
  | tail _ move ih =>
      rw [← List.append_assoc]
      exact ih.tail move

theorem Move.course (move : Move world added after) : Course world added after :=
  List.nil_append added ▸ (Course.refl world).tail move

theorem Undisturbed.of_eq (contexts : after.contexts = world.contexts)
    (adapters : after.adapters = world.adapters) (journal : after.journal = world.journal) :
    Undisturbed world after := by
  refine ⟨contexts, fun id known => ?_, fun id => ?_⟩
  · rw [adapters]
    exact ⟨known, rfl⟩
  · rw [World.told, journal]
    rfl

theorem Outside.undisturbed (outside : Outside world after) : Undisturbed world after := by
  refine ⟨outside.contexts, fun id known => ?_, ?_⟩
  · rw [outside.adapters]
    exact ⟨known, rfl⟩
  · obtain ⟨reports, journal⟩ := outside.journal
    exact told_append_notes journal

namespace Moves

theorem beside (undisturbed : Undisturbed world after) : Moves world after :=
  ⟨_, (Move.beside undisturbed).course⟩

theorem lasting : Lasting Moves where
  refl world := ⟨_, .refl world⟩
  trans first second := by
    obtain ⟨added, first⟩ := first
    obtain ⟨more, second⟩ := second
    exact ⟨_, first.trans second⟩

/-- Where there is no context, nothing is done. -/
theorem modifyContext_of_unknown (world : World) {id : ContextId} (change : Context → Context)
    (unknown : ¬id.index < world.contexts.size) : Moves world (world.modifyContext id change) :=
  .beside (.of_eq (Arena.modify_of_unknown _ _ unknown) rfl rfl)

theorem tolerant : Tolerant Moves where
  lasting := lasting
  outside outside := beside outside.undisturbed
  operate world id operation := by
    rw [HostM.eval_onContext]
    cases done : operation.run (world.contexts.get id) with
    | error error => exact lasting.refl world
    | ok result =>
        by_cases known : id.index < world.contexts.size
        · exact ⟨_, (Move.operate known done).course⟩
        · exact modifyContext_of_unknown world _ known
  releaseNow world id unbegun := by
    by_cases known : id.index < world.contexts.size
    · exact ⟨_, (Move.release known unbegun).course⟩
    · refine beside ⟨?_, fun adapter known => ?_, fun other => ?_⟩
      · rw [contexts_releaseNow, Arena.modify_of_unknown _ _ known]
      · rw [adapters_releaseNow]
        exact ⟨known, rfl⟩
      · rw [told_releaseNow, Arena.get_of_unknown _ known]
        split <;> exact List.append_nil _

theorem heedless : Heedless Moves :=
  ⟨tolerant, fun _ _ _ _ => beside (.of_eq rfl rfl rfl)⟩

/-- A context that is made enterable is bound by a move of its own. -/
theorem bindEnterable (executable : ExecutableId) (key : String) (context : ContextId)
    (container : Option Service) {controller : Option Controller}
    (controlled : ∀ present, controller = some present → present.Keeps Moves context) :
    (bindEnterable executable key context container controller).Keeps Moves := by
  unfold DocumentHost.bindEnterable
  refine Lasting.get fun world => ?_
  dsimp only
  split
  · exact lasting.pure _ world
  split
  · exact lasting.throw _ world
  refine lasting.bind (heedless.executing.execute executable context container controlled)
    (fun _ => ?_) world
  refine Lasting.get fun between => ?_
  split
  · exact lasting.pure _ between
  have binds : (onContext context (Context.bindEnterable executable)).Keeps Moves := by
    intro world
    rw [HostM.KeepsFrom, HostM.eval_onContext]
    cases done : Context.bindEnterable executable (world.contexts.get context) with
    | error error => exact lasting.refl world
    | ok result =>
        by_cases known : context.index < world.contexts.size
        · exact ⟨_, (Move.bind known done).course⟩
        · exact modifyContext_of_unknown world _ known
  refine lasting.bind (Lasting.convert _ binds) (fun _ => ?_) between
  refine lasting.bind (Lasting.modify fun world => ?_) fun _ => lasting.pure _
  exact beside (.of_eq rfl rfl rfl)

theorem releaseBound (executable : ExecutableId) (key : String) :
    (releaseBound executable key).Keeps Moves := by
  unfold DocumentHost.releaseBound
  refine Lasting.get fun world => ?_
  split
  · exact lasting.pure _ world
  · refine lasting.bind (Lasting.modify fun world => ?_) (fun _ => ?_) world
    · exact beside (.of_eq rfl rfl rfl)
    · exact lasting.bind (Lasting.convert _ (tolerant.release _)) fun _ => lasting.pure _

end Moves

end World

end DocumentHost
