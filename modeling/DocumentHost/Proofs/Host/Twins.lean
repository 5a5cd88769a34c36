import DocumentHost.Proofs.Host.Agreement
import DocumentHost.Proofs.Host.Checking

/-!
# Twin states

A document that has been compiled in two hosts, in one with its programs checked and in the
other without, leaves them as twins: they differ in what their executables were compiled with,
as far as checking goes, and in the keys under which descriptors hold compiled forms.  Whatever
does not look up a compiled form goes on in the same way in both.
-/

namespace DocumentHost

/-! ## Twin objects -/

/-- Two arenas of which the objects are alike, one by one. -/
structure Arena.Matches {kind : Kind} {α : Type} [Inhabited α] (Alike : α → α → Prop)
    (first second : Arena kind α) : Prop where
  size : second.size = first.size
  get : ∀ id, Alike (first.get id) (second.get id)

namespace Arena.Matches

variable {kind : Kind} {α : Type} [Inhabited α] {Alike : α → α → Prop}
  {first second : Arena kind α}

theorem refl (alike : ∀ item, Alike item item) (arena : Arena kind α) :
    Matches Alike arena arena :=
  ⟨rfl, fun _ => alike _⟩

theorem modify (matched : Matches Alike first second) (id : Identity kind)
    {change otherChange : α → α} (alike : Alike (change (first.get id)) (otherChange (second.get id))) :
    Matches Alike (first.modify id change) (second.modify id otherChange) := by
  refine ⟨by rw [size_modify, size_modify, matched.size], fun other => ?_⟩
  rw [get_modify, get_modify, matched.size]
  split
  · exact alike
  · exact matched.get other

theorem add (matched : Matches Alike first second) {item other : α} (alike : Alike item other) :
    (second.add other).1 = (first.add item).1 ∧
      Matches Alike (first.add item).2 (second.add other).2 := by
  have same : (second.add other).1 = (first.add item).1 := congrArg Identity.mk matched.size
  refine ⟨same, by rw [size_add, size_add, matched.size], fun id => ?_⟩
  rw [get_add, get_add, same]
  split
  · exact alike
  · exact matched.get id

end Arena.Matches

/-- Two executables that differ in whether they were compiled with checks. -/
def Executable.Twin (first second : Executable) : Prop :=
  ∃ ahead, second = { first with setting := first.setting.preparing ahead }

/-- Two descriptors that have the same compiled forms under keys of their own. -/
structure Descriptor.Twin (first second : Descriptor) : Prop where
  rest : ∃ slots, second = { first with slots }
  forms : second.slots.values = first.slots.values

theorem Executable.Twin.refl (executable : Executable) : executable.Twin executable :=
  ⟨executable.setting.options.prepare, rfl⟩

theorem Descriptor.Twin.refl (descriptor : Descriptor) : descriptor.Twin descriptor :=
  ⟨⟨descriptor.slots, rfl⟩, rfl⟩

/-- A change that does not touch compiled forms. -/
theorem Descriptor.Twin.change {first second : Descriptor} (twin : first.Twin second)
    {change : Descriptor → Descriptor}
    (commutes : ∀ descriptor slots, change { descriptor with slots } =
      { change descriptor with slots })
    (keeps : ∀ descriptor, (change descriptor).slots = descriptor.slots) :
    (change first).Twin (change second) := by
  obtain ⟨⟨slots, rfl⟩, forms⟩ := twin
  refine ⟨⟨slots, commutes first slots⟩, ?_⟩
  rw [keeps, keeps, forms]

namespace Descriptors

variable {first second : Descriptors}

theorem canInvalidate_of_matches (matched : Arena.Matches Descriptor.Twin first second)
    (id : DescriptorId) : canInvalidate second id = canInvalidate first id := by
  obtain ⟨slots, same⟩ := (matched.get id).rest
  rw [canInvalidate, canInvalidate, matched.size, same]

/-- By induction on the work that is left to do. -/
theorem invalidateAll_matches (pending : List DescriptorId)
    (matched : Arena.Matches Descriptor.Twin first second) :
    Arena.Matches Descriptor.Twin (invalidateAll pending first) (invalidateAll pending second) := by
  induction pending, first using invalidateAll.induct generalizing second with
  | case1 descriptors =>
      rw [invalidateAll, invalidateAll]
      exact matched
  | case2 id pending descriptors possible ih =>
      have otherPossible := canInvalidate_of_matches matched id
      rw [possible] at otherPossible
      obtain ⟨slots, same⟩ := (matched.get id).rest
      rw [invalidateAll, if_pos possible, invalidateAll, if_pos otherPossible, same]
      exact ih (matched.modify id ((matched.get id).change (fun _ _ => rfl) fun _ => rfl))
  | case3 id pending descriptors impossible ih =>
      have otherImpossible : ¬canInvalidate second id = true := by
        rwa [canInvalidate_of_matches matched]
      rw [invalidateAll, if_neg impossible, invalidateAll, if_neg otherImpossible]
      exact ih matched

end Descriptors

/-! ## Twin states -/

namespace World

/-- Two states that are the same but for twin executables and twin descriptors. -/
structure Twins (world other : World) : Prop where
  rest : ∃ executables descriptors, other = { world with executables, descriptors }
  executables : Arena.Matches Executable.Twin world.executables other.executables
  descriptors : Arena.Matches Descriptor.Twin world.descriptors other.descriptors

namespace Twins

variable {ε α : Type} {world other : World}

theorem refl (world : World) : Twins world world :=
  ⟨⟨_, _, rfl⟩, .refl Executable.Twin.refl _, .refl Descriptor.Twin.refl _⟩

/-- A change of neither executables nor descriptors. -/
theorem change (twins : Twins world other) (change : World → World)
    (commutes : ∀ world executables descriptors,
      change { world with executables, descriptors } =
        { change world with executables, descriptors })
    (executables : ∀ world, (change world).executables = world.executables)
    (descriptors : ∀ world, (change world).descriptors = world.descriptors) :
    Twins (change world) (change other) := by
  obtain ⟨⟨otherExecutables, otherDescriptors, rfl⟩, matched, descriptorsMatched⟩ := twins
  refine ⟨⟨_, _, commutes _ _ _⟩, ?_, ?_⟩
  · rw [executables, executables]
    exact matched
  · rw [descriptors, descriptors]
    exact descriptorsMatched

theorem modifyDescriptor (twins : Twins world other) (id : DescriptorId)
    {change : Descriptor → Descriptor}
    (commutes : ∀ descriptor slots, change { descriptor with slots } =
      { change descriptor with slots })
    (keeps : ∀ descriptor, (change descriptor).slots = descriptor.slots) :
    Twins (world.modifyDescriptor id change) (other.modifyDescriptor id change) := by
  obtain ⟨⟨_, _, rfl⟩, executables, descriptors⟩ := twins
  exact ⟨⟨_, _, rfl⟩, executables,
    descriptors.modify id ((descriptors.get id).change commutes keeps)⟩

theorem addDescriptor (twins : Twins world other) {descriptor otherDescriptor : Descriptor}
    (twin : descriptor.Twin otherDescriptor) :
    (other.addDescriptor otherDescriptor).1 = (world.addDescriptor descriptor).1 ∧
      Twins (world.addDescriptor descriptor).2 (other.addDescriptor otherDescriptor).2 := by
  obtain ⟨⟨_, _, rfl⟩, executables, descriptors⟩ := twins
  obtain ⟨same, added⟩ := descriptors.add twin
  exact ⟨same, ⟨_, _, rfl⟩, executables, added⟩

theorem invalidate (twins : Twins world other) (id : DescriptorId) :
    Twins (world.invalidate id) (other.invalidate id) := by
  obtain ⟨⟨_, _, rfl⟩, executables, descriptors⟩ := twins
  exact ⟨⟨_, _, rfl⟩, executables, Descriptors.invalidateAll_matches [id] descriptors⟩

theorem modifyDocuments (twins : Twins world other)
    (change : NameTable DescriptorId → NameTable DescriptorId) :
    Twins (world.modifyDocuments change) (other.modifyDocuments change) :=
  twins.change (World.modifyDocuments · change) (fun _ _ _ => rfl) (fun _ => rfl) fun _ => rfl

theorem tick (twins : Twins world other) : Twins world.tick other.tick :=
  twins.change World.tick (fun _ _ _ => rfl) (fun _ => rfl) fun _ => rfl

theorem modifyContext (twins : Twins world other) (id : ContextId) (change : Context → Context) :
    Twins (world.modifyContext id change) (other.modifyContext id change) :=
  twins.change (World.modifyContext · id change) (fun _ _ _ => rfl) (fun _ => rfl) fun _ => rfl

theorem holdingMore (twins : Twins world other) (more : Holdings) :
    Twins (world.holdingMore more) (other.holdingMore more) :=
  twins.change (World.holdingMore · more) (fun _ _ _ => rfl) (fun _ => rfl) fun _ => rfl

theorem modifyExecutable (twins : Twins world other) (id : ExecutableId)
    {change : Executable → Executable}
    (commutes : ∀ executable setting, change { executable with setting } =
      { change executable with setting })
    (keeps : ∀ executable, (change executable).setting = executable.setting) :
    Twins (world.modifyExecutable id change) (other.modifyExecutable id change) := by
  obtain ⟨⟨_, _, rfl⟩, executables, descriptors⟩ := twins
  refine ⟨⟨_, _, rfl⟩, executables.modify id ?_, descriptors⟩
  obtain ⟨ahead, same⟩ := executables.get id
  refine ⟨ahead, ?_⟩
  rw [same, commutes, keeps]

/-! ## Releases -/

theorem heldContexts (twins : Twins world other) : other.heldContexts = world.heldContexts := by
  obtain ⟨⟨otherExecutables, otherDescriptors, rfl⟩, executables, descriptors⟩ := twins
  have forms (id : DescriptorId) :
      (otherDescriptors.get id).slots.values = (world.descriptors.get id).slots.values :=
    (descriptors.get id).forms
  have enterable (id : ExecutableId) :
      (otherExecutables.get id).enterable = (world.executables.get id).enterable := by
    obtain ⟨ahead, same⟩ : (world.executables.get id).Twin (otherExecutables.get id) :=
      executables.get id
    rw [same]
  simp only [World.heldContexts, World.heldExecutables, World.heldDescriptors, forms, enterable]

theorem releaseHook (twins : Twins world other) (context : ContextId) (adapter : AdapterId) :
    Twins (world.releaseHook context adapter) (other.releaseHook context adapter) :=
  twins.change (World.releaseHook context · adapter) (fun _ _ _ => rfl) (fun _ => rfl) fun _ => rfl

theorem releaseNow (twins : Twins world other) (id : ContextId) :
    Twins (world.releaseNow id) (other.releaseNow id) := by
  have told (adapters : List AdapterId) {start otherStart : World}
      (twins : Twins start otherStart) :
      Twins (adapters.foldl (World.releaseHook id) start)
        (adapters.foldl (World.releaseHook id) otherStart) := by
    induction adapters generalizing start otherStart with
    | nil => exact twins
    | cons adapter rest ih => exact ih (twins.releaseHook id adapter)
  have same : (other.contexts.get id).adapters = (world.contexts.get id).adapters := by
    obtain ⟨⟨_, _, rfl⟩, -, -⟩ := twins
    rfl
  rw [World.releaseNow, World.releaseNow, same]
  exact (told _ (twins.modifyContext id _)).modifyContext id _

theorem dropContext (twins : Twins world other) (id : ContextId) :
    Twins (world.dropContext id) (other.dropContext id) := by
  have same : (other.contexts.get id).releasing = (world.contexts.get id).releasing := by
    obtain ⟨⟨_, _, rfl⟩, -, -⟩ := twins
    rfl
  rw [World.dropContext, World.dropContext, same]
  split
  · exact twins
  · exact twins.releaseNow id

theorem releaseUnheld (twins : Twins world other) :
    Twins world.releaseUnheld other.releaseUnheld := by
  have dropped (ids : List ContextId) {start otherStart : World}
      (twins : Twins start otherStart) :
      Twins (ids.foldl World.dropContext start) (ids.foldl World.dropContext otherStart) := by
    induction ids generalizing start otherStart with
    | nil => exact twins
    | cons id rest ih => exact ih (twins.dropContext id)
  have same : other.contexts = world.contexts := by
    obtain ⟨⟨_, _, rfl⟩, -, -⟩ := twins
    rfl
  rw [World.releaseUnheld, World.releaseUnheld, twins.heldContexts, same]
  exact dropped _ twins

theorem sweep (twins : Twins world other) : Twins world.sweep other.sweep := by
  have retained : Twins
      (world.modifyDocuments fun documents =>
        documents.retain fun id => !(world.descriptors.get id).invalidated)
      (other.modifyDocuments fun documents =>
        documents.retain fun id => !(other.descriptors.get id).invalidated) := by
    have same (id : DescriptorId) : (other.descriptors.get id).invalidated =
        (world.descriptors.get id).invalidated := by
      obtain ⟨slots, twin⟩ := (twins.descriptors.get id).rest
      rw [twin]
    simp only [same]
    exact twins.modifyDocuments _
  exact retained.releaseUnheld

theorem forget (twins : Twins world other) (name : String) :
    Twins (world.forget name) (other.forget name) :=
  (twins.modifyDocuments _).releaseUnheld

/-! ## Operations -/

/-- A reading of the state goes on with two states that are the same but for executables and
descriptors. -/
theorem get_agree {next otherNext : World → HostM ε α}
    (nexts : ∀ world executables descriptors,
      Twins world { world with executables, descriptors } →
      AgreeFrom Twins world { world with executables, descriptors } (next world)
        (otherNext { world with executables, descriptors })) :
    Agree Twins (MonadState.get >>= next) (MonadState.get >>= otherNext) := by
  apply Agree.get
  intro world other twins
  obtain ⟨executables, descriptors, same⟩ := twins.rest
  rw [same] at twins ⊢
  exact nexts world executables descriptors twins

theorem descriptor {executables : Arena .executable Executable} {descriptors : Descriptors}
    (twins : Twins world { world with executables, descriptors }) (id : DescriptorId) :
    ∃ slots, descriptors.get id = { world.descriptors.get id with slots } :=
  (twins.descriptors.get id).rest

theorem readClock_agree : Agree Twins (readClock : HostM ε Instant) readClock :=
  get_agree fun _ _ _ twins => (AgreeFrom.modify twins.tick).bind fun _ => .pure _

theorem fileIsCurrent_agree (id : DescriptorId) (backing : Backing) :
    Agree Twins (fileIsCurrent id backing) (fileIsCurrent id backing) := by
  intro world other twins
  unfold fileIsCurrent
  refine .ite Iff.rfl (fun _ => .pure twins _) fun _ => ?_
  refine (readClock_agree.bind fun now => ?_) _ _ twins
  clear twins world other
  intro world other twins
  refine .ite Iff.rfl (fun _ => .pure twins _) fun _ => ?_
  refine ((Agree.modify fun _ _ twins =>
    twins.modifyDescriptor id (fun _ _ => rfl) fun _ => rfl).bind fun _ => ?_) _ _ twins
  refine get_agree fun world executables descriptors twins => ?_
  dsimp only
  cases world.files.modified backing.path with
  | ok modified => exact .pure twins _
  | error _ => exact .pure twins _

theorem judgeEach_agree
    {check : DescriptorId → List DescriptorId → HostM DocumentError (Bool × List DescriptorId)}
    (checks : ∀ id visited, Agree Twins (check id visited) (check id visited))
    (ids visited : List DescriptorId) :
    Agree Twins (judgeEach check ids visited) (judgeEach check ids visited) := by
  induction ids generalizing visited with
  | nil => exact .pure _
  | cons id rest ih =>
      unfold judgeEach
      refine get_agree fun world executables descriptors twins => ?_
      obtain ⟨slots, same⟩ := twins.descriptor id
      dsimp only
      rw [same]
      refine .ite Iff.rfl (fun _ => .pure twins _) fun _ => ?_
      refine (checks id visited).bind (fun outcome => ?_) _ _ twins
      obtain ⟨valid, visited⟩ := outcome
      cases valid with
      | true => exact ih visited
      | false => exact .pure _

/-- By induction on the levels. -/
theorem judgeWithin_agree (levels : Nat) (id : DescriptorId) (visited : List DescriptorId) :
    Agree Twins (judgeWithin levels id visited) (judgeWithin levels id visited) := by
  induction levels generalizing id visited with
  | zero =>
      unfold judgeWithin
      refine get_agree fun world executables descriptors twins => ?_
      obtain ⟨slots, same⟩ := twins.descriptor id
      dsimp only
      rw [same]
      exact .throw twins _
  | succ levels ih =>
      unfold judgeWithin
      refine get_agree fun world executables descriptors twins => ?_
      obtain ⟨slots, same⟩ := twins.descriptor id
      dsimp only
      rw [same]
      refine .ite Iff.rfl (fun _ => .pure twins _) fun _ => ?_
      refine .ite Iff.rfl (fun _ => .pure twins _) fun _ => ?_
      refine (judgeEach_agree ih _ _).bind (fun outcome => ?_) _ _ twins
      obtain ⟨sound, visited⟩ := outcome
      have settled (current : Bool) :
          let settle : HostM DocumentError (Bool × List DescriptorId) :=
            if (!current) = true then do
              modify fun world => world.invalidate id
              pure (current, visited)
            else pure (current, visited)
          Agree Twins settle settle := by
        cases current with
        | true => exact .pure _
        | false =>
            exact (Agree.modify fun _ _ twins => twins.invalidate id).bind fun _ => .pure _
      cases sound with
      | false => exact settled false
      | true =>
          refine get_agree fun world executables descriptors twins => ?_
          obtain ⟨slots, same⟩ := twins.descriptor id
          dsimp only
          rw [same]
          cases (world.descriptors.get id).backing with
          | none => exact settled true _ _ twins
          | some backing => exact (fileIsCurrent_agree id backing).bind settled _ _ twins

theorem isValid_agree (id : DescriptorId) : Agree Twins (isValid id) (isValid id) :=
  (judgeWithin_agree _ id []).bind fun outcome => .pure outcome.1

theorem addDescriptor_agree (descriptor : Descriptor) :
    Agree Twins
      (do
        let (id, changed) := (← get).addDescriptor descriptor
        set changed
        return id : HostM ε DescriptorId)
      (do
        let (id, changed) := (← get).addDescriptor descriptor
        set changed
        return id) := by
  intro world other twins
  obtain ⟨same, added⟩ := twins.addDescriptor (Descriptor.Twin.refl descriptor)
  exact ⟨congrArg Except.ok same.symm, added⟩

theorem readDocument_agree (settings : FileSettings) (name : String) :
    Agree Twins (readDocument settings name) (readDocument settings name) := by
  unfold readDocument
  refine get_agree fun world executables descriptors twins => ?_
  dsimp only
  cases resolve? settings world.files name with
  | none => exact .throw twins _
  | some path =>
      refine ((Agree.ofExcept _).bind fun modified => ?_) _ _ twins
      refine (Agree.ofExcept _).bind fun text => ?_
      exact readClock_agree.bind fun lastChecked => addDescriptor_agree _

theorem sweep_agree :
    Agree Twins (modify World.sweep : HostM ε Unit) (modify World.sweep) :=
  .modify fun _ _ => sweep

theorem fetchDocument_agree (name : String) :
    Agree Twins (fetchDocument name) (fetchDocument name) := by
  unfold fetchDocument
  refine get_agree fun world executables descriptors twins => ?_
  have forgotten : Agree Twins
      (modify fun world => world.forget name : HostM DocumentError Unit)
      (modify fun world => world.forget name) :=
    .modify fun _ _ twins => twins.forget name
  have entered (id : DescriptorId) : Agree Twins
      (modify fun world => world.modifyDocuments fun documents => documents.insert name id :
        HostM DocumentError Unit)
      (modify fun world => world.modifyDocuments fun documents => documents.insert name id) :=
    .modify fun _ _ twins => twins.modifyDocuments _
  dsimp only [World.kept?]
  refine Agree.bind ?_ (fun valid? => ?_) _ _ twins
  · split
    · rename_i id _
      refine (isValid_agree id).bind fun valid => ?_
      cases valid <;> exact .pure _
    · exact .pure _
  · cases valid? with
    | some id => exact .pure id
    | none =>
        cases world.source.map Source.kind with
        | none => exact forgotten.bind fun _ => .throw _
        | some kind =>
            cases kind with
            | memory => exact forgotten.bind fun _ => .throw _
            | files settings =>
                refine (readDocument_agree settings name).bind fun fresh => ?_
                exact sweep_agree.bind fun _ => (entered fresh).bind fun _ => .pure fresh

theorem recordDependency_agree {document other : Executable} (twin : document.Twin other)
    (name : String) :
    Agree Twins (recordDependency document name) (recordDependency other name) := by
  obtain ⟨ahead, rfl⟩ := twin
  change Agree Twins (recordDependency document name) (recordDependency document name)
  have fetches (name : String) : Agree Twins
      ((fetchDocument name).attempt : HostM ExecutionError (Except DocumentError DescriptorId))
      (fetchDocument name).attempt :=
    (fetchDocument_agree name).attempt
  unfold recordDependency
  refine get_agree fun world executables descriptors twins => ?_
  refine .ite Iff.rfl (fun _ => ?_) fun _ => .pure twins _
  refine ((fetches _).bind fun includer => ?_) _ _ twins
  cases includer with
  | error _ => exact (fetches name).bind fun _ => .pure _
  | ok includer =>
      refine (fetches name).bind fun included => ?_
      cases included with
      | error _ => exact .pure _
      | ok included =>
          refine .modify fun _ _ twins => twins.modifyDescriptor includer (fun _ _ => ?_) fun _ => ?_
          all_goals split <;> rfl

theorem keeping_agree (more : Holdings) {first second : HostM ε α}
    (agree : Agree Twins first second) : Agree Twins (keeping more first) (keeping more second) := by
  intro world other twins
  obtain ⟨same, behind⟩ := agree _ _ (twins.holdingMore more)
  have holdings : other.holdings = world.holdings := by
    obtain ⟨_, _, rfl⟩ := twins.rest
    rfl
  rw [AgreeFrom, HostM.eval_keeping, HostM.eval_keeping, holdings]
  exact ⟨same, (behind.change (fun state => { state with holdings := world.holdings })
    (fun _ _ _ => rfl) (fun _ => rfl) fun _ => rfl).releaseUnheld⟩

theorem linkDependent (twins : Twins world other) (id dependent : DescriptorId) :
    Twins (world.linkDependent id dependent) (other.linkDependent id dependent) := by
  have linked : Twins
      (world.modifyDescriptor id fun descriptor =>
        { descriptor with dependents := descriptor.dependents ++ [dependent] })
      (other.modifyDescriptor id fun descriptor =>
        { descriptor with dependents := descriptor.dependents ++ [dependent] }) :=
    twins.modifyDescriptor id (fun _ _ => rfl) fun _ => rfl
  obtain ⟨slots, same⟩ := (linked.descriptors.get id).rest
  unfold World.linkDependent
  dsimp only
  rw [same]
  dsimp only
  split
  · exact linked.invalidate dependent
  · exact linked

/-- In-flow code is made to depend on its document. -/
theorem attachInFlow_agree (document : Document) (seeded : DescriptorId) :
    Agree Twins (attachInFlow document seeded) (attachInFlow document seeded) := by
  refine keeping_agree _ (get_agree fun world executables descriptors twins => ?_)
  refine .ite Iff.rfl (fun _ => ?_) fun _ => .pure twins _
  have fetches : Agree Twins
      (((fetchDocument document.name).convert ParsingError.document).attempt :
        HostM ParsingError (Except ParsingError DescriptorId))
      ((fetchDocument document.name).convert ParsingError.document).attempt :=
    ((fetchDocument_agree document.name).convert _).attempt
  refine (fetches.bind fun parent => ?_) _ _ twins
  cases parent with
  | error _ => exact .pure _
  | ok parent => exact .modify fun _ _ twins => twins.linkDependent parent seeded

theorem onContext_agree (id : ContextId)
    (operation : Context → Except ContextError (α × Context)) :
    Agree Twins (onContext id operation) (onContext id operation) :=
  get_agree fun _ _ _ twins => (AgreeFrom.ofExcept twins _).bind fun _ =>
    (Agree.modify fun _ _ twins => twins.modifyContext id _).bind fun _ => .pure _

theorem inContext_agree (id : ContextId)
    (operation : Context → Except ContextError (α × Context)) :
    Agree Twins (inContext id operation) (inContext id operation) :=
  (onContext_agree id operation).convert _

theorem writeText_agree (id : ContextId) (stream : Stream) (text : String) :
    Agree Twins (writeText id stream text) (writeText id stream text) := by
  refine get_agree fun world executables descriptors twins => ?_
  dsimp only
  cases (world.contexts.get id).ensureOpen with
  | error error => exact .throw twins _
  | ok _ =>
      cases (world.sinks.get ((world.contexts.get id).sink stream)).write text with
      | error reason => exact .throw twins _
      | ok sink => exact .set ⟨⟨_, _, rfl⟩, twins.executables, twins.descriptors⟩

theorem release_agree (id : ContextId) : Agree Twins (release id) (release id) := by
  refine get_agree fun world executables descriptors twins => ?_
  refine .ite Iff.rfl (fun _ => .throw twins _) fun _ => ?_
  exact .modify (twins.releaseNow id)

theorem noteUse_agree (id : ExecutableId) :
    Agree Twins (noteUse id : HostM ε Unit) (noteUse id) :=
  readClock_agree.bind fun _ => .modify fun _ _ twins =>
    twins.modifyExecutable id (fun _ _ => rfl) fun _ => rfl

/-- What a program asks for is served alike, includes apart. -/
theorem serveRequest_agree
    (includes otherIncludes : ExecutableId → String → ContextId → HostM ExecutionError Unit)
    (executable : ExecutableId) (context : ContextId) {request : Request}
    (noInclude : ∀ name, request ≠ .includeDocument name) :
    Agree Twins (serveRequest includes executable context request)
      (serveRequest otherIncludes executable context request) := by
  have globals (change : NameTable Json → NameTable Json) (name : String) : Agree Twins
      (do
        let world ← get
        set { world with globals := change world.globals }
        return world.globals.get? name : HostM ExecutionError (Option Json))
      (do
        let world ← get
        set { world with globals := change world.globals }
        return world.globals.get? name) :=
    get_agree fun _ _ _ twins =>
      (AgreeFrom.set ⟨⟨_, _, rfl⟩, twins.executables, twins.descriptors⟩).bind fun _ => .pure _
  cases request with
  | includeDocument name => exact absurd rfl (noInclude name)
  | write stream text => exact (writeText_agree context stream text).convert _
  | readAttribute name => exact inContext_agree context _
  | setAttribute name value => exact inContext_agree context _
  | removeAttribute name => exact inContext_agree context _
  | findService name => exact inContext_agree context _
  | setService name service => exact inContext_agree context _
  | removeService name => exact inContext_agree context _
  | readGlobal name => exact get_agree fun _ _ _ twins => .pure twins _
  | setGlobal name value => exact globals (NameTable.insert · name value) name
  | removeGlobal name => exact globals (NameTable.erase · name) name
  | freeze => exact inContext_agree context _
  | release => exact (release_agree context).convert _
  | adapterName tag =>
      refine get_agree fun world executables descriptors twins => ?_
      obtain ⟨ahead, same⟩ : (world.executables.get executable).Twin (executables.get executable) :=
        twins.executables.get executable
      dsimp only
      rw [same]
      exact .pure twins _
  | isCurrent => exact get_agree fun _ _ _ twins => .pure twins _
  | note text => exact .modify fun _ _ twins =>
      twins.change (World.note · text) (fun _ _ _ => rfl) (fun _ => rfl) fun _ => rfl

end Twins

end World

end DocumentHost
