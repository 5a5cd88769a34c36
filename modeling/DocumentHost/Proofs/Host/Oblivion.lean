import DocumentHost.Proofs.Host.Forgetting

/-!
# Runs do not look at the record of adapters

Operations on a context read and change its attributes, services and outputs without a
look at the record of its adapters.  So two runs of one document that begin alike but for
that record go in lockstep.
-/

namespace DocumentHost

/-- An operation on a context that does not look at the record of its adapters, and that
does not release it. -/
structure Context.Blind {α : Type}
    (operation : Context → Except ContextError (α × Context)) : Prop where
  outcome : ∀ context adapters lastAdapter,
    (operation { context with adapters, lastAdapter }).map
        (fun result => (result.1, result.2.forgetAdapters)) =
      (operation context).map fun result => (result.1, result.2.forgetAdapters)
  released : ∀ context value changed, operation context = .ok (value, changed) →
    changed.released = context.released

namespace Context.Blind

/-- An operation that first makes a check and then reads and changes the context. -/
theorem checked {α : Type} {check : Context → Except ContextError Unit} {read : Context → α}
    {change : Context → Context}
    (checks : ∀ context adapters lastAdapter,
      check { context with adapters, lastAdapter } = check context)
    (reads : ∀ context adapters lastAdapter,
      read { context with adapters, lastAdapter } = read context)
    (changes : ∀ context adapters lastAdapter,
      (change { context with adapters, lastAdapter }).forgetAdapters =
        (change context).forgetAdapters)
    (keeps : ∀ context, (change context).released = context.released) :
    Blind fun context => do
      check context
      return (read context, change context) where
  outcome context adapters lastAdapter := by
    rw [checks]
    cases check context with
    | error error => rfl
    | ok _ =>
        change Except.ok (_, _) = Except.ok (_, _)
        rw [reads, changes]
  released context value changed succeeded := by
    rw [Outcome.bind_eq_ok_iff] at succeeded
    obtain ⟨_, _, equal⟩ := succeeded
    cases equal
    exact keeps context

theorem attribute? (name : String) : Blind (Context.attribute? name) :=
  checked (fun _ _ _ => rfl) (fun _ _ _ => rfl) (fun _ _ _ => rfl) fun _ => rfl

theorem setAttribute (name : String) (value : Json) : Blind (Context.setAttribute name value) :=
  checked (fun _ _ _ => rfl) (fun _ _ _ => rfl) (fun _ _ _ => rfl) fun _ => rfl

theorem service? (name : String) : Blind (Context.service? name) :=
  checked (fun _ _ _ => rfl) (fun _ _ _ => rfl) (fun _ _ _ => rfl) fun _ => rfl

theorem setService (name : String) (service : Service) : Blind (Context.setService name service) :=
  checked (fun _ _ _ => rfl) (fun _ _ _ => rfl) (fun _ _ _ => rfl) fun _ => rfl

theorem removeService (name : String) : Blind (Context.removeService name) :=
  checked (fun _ _ _ => rfl) (fun _ _ _ => rfl) (fun _ _ _ => rfl) fun _ => rfl

theorem addAdapter (adapter : AdapterId) : Blind (Context.addAdapter adapter) :=
  checked (fun _ _ _ => rfl) (fun _ _ _ => rfl) (fun _ _ _ => rfl) fun _ => rfl

theorem forget {α : Type} {operation : Context → Except ContextError (α × Context)}
    (blind : Blind operation) {first second : Context}
    (same : first.forgetAdapters = second.forgetAdapters) :
    (operation first).map (fun result => (result.1, result.2.forgetAdapters)) =
      (operation second).map fun result => (result.1, result.2.forgetAdapters) := by
  have secondShape : second =
      { first with adapters := second.adapters, lastAdapter := second.lastAdapter } := by
    cases first
    cases second
    simp only [forgetAdapters, mk.injEq] at same ⊢
    simp [same]
  rw [secondShape]
  exact (blind.outcome first _ _).symm

end Context.Blind

namespace Alike

variable {ε α : Type} {context : ContextId} {pairs : List (ExecutableId × ExecutableId)}
  {world other : World}

theorem context_eq (alike : Alike context pairs world other) :
    (world.contexts.get context).forgetAdapters =
      (other.contexts.get context).forgetAdapters :=
  alike.indistinct.context_eq alike.known

theorem replace (alike : Alike context pairs world other) {changed otherChanged : Context}
    (same : changed.forgetAdapters = otherChanged.forgetAdapters)
    (unreleased : changed.released = false) :
    Alike context pairs (world.modifyContext context fun _ => changed)
      (other.modifyContext context fun _ => otherChanged) where
  indistinct := alike.indistinct.replace same
  speaks := alike.speaks.of_eq ⟨rfl, rfl⟩ rfl
  current := alike.current
  known := by
    change context.index < (world.contexts.modify context fun _ => changed).size
    rw [Arena.size_modify]
    exact alike.known
  unreleased := by
    change ((world.contexts.modify context fun _ => changed).get context).released = false
    rw [Arena.get_modify_self _ _ alike.known]
    exact unreleased
  pairs := alike.pairs

theorem onContext_agree {operation : Context → Except ContextError (α × Context)}
    (blind : Context.Blind operation) :
    Agree (Alike context pairs) (onContext context operation) (onContext context operation) := by
  intro world other alike
  have same := blind.forget alike.context_eq
  refine .get ?_
  rw [AgreeFrom]
  cases first : operation (world.contexts.get context) with
  | error error =>
      cases second : operation (other.contexts.get context) with
      | error otherError =>
          rw [first, second] at same
          cases same
          exact ⟨rfl, alike⟩
      | ok result =>
          rw [first, second] at same
          cases same
  | ok result =>
      cases second : operation (other.contexts.get context) with
      | error otherError =>
          rw [first, second] at same
          cases same
      | ok otherResult =>
          rw [first, second] at same
          obtain ⟨value, changed⟩ := result
          obtain ⟨otherValue, otherChanged⟩ := otherResult
          simp only [Except.map, Except.ok.injEq, Prod.mk.injEq] at same
          obtain ⟨rfl, changedAlike⟩ := same
          refine ⟨rfl, alike.replace changedAlike ?_⟩
          rw [blind.released _ _ _ first]
          exact alike.unreleased

/-- The sink of a stream is the same in both states. -/
theorem sink_eq (alike : Alike context pairs world other) (stream : Stream) :
    (other.contexts.get context).sink stream = (world.contexts.get context).sink stream := by
  have same := alike.context_eq
  simp only [Context.forgetAdapters, Context.mk.injEq] at same
  cases stream with
  | output => exact same.2.2.2.2.1.symm
  | error => exact same.2.2.2.2.2.1.symm

theorem marks_eq (alike : Alike context pairs world other) :
    (world.contexts.get context).released = (other.contexts.get context).released ∧
      (world.contexts.get context).frozen = (other.contexts.get context).frozen := by
  have same := alike.context_eq
  simp only [Context.forgetAdapters, Context.mk.injEq] at same
  exact ⟨same.2.2.2.2.2.2.2.1, same.2.2.2.2.2.2.1⟩

theorem writeText_agree (stream : Stream) (text : String) :
    Agree (Alike context pairs) (writeText context stream text)
      (writeText context stream text) := by
  refine (compiling context pairs).get_agree fun world contexts alike => ?_
  have opens : (contexts.get context).ensureOpen = (world.contexts.get context).ensureOpen := by
    simp only [Context.ensureOpen, alike.marks_eq.1]
  have sink : (contexts.get context).sink stream = (world.contexts.get context).sink stream :=
    alike.sink_eq stream
  dsimp only
  rw [opens, sink]
  cases (world.contexts.get context).ensureOpen with
  | error error => exact ⟨rfl, alike⟩
  | ok _ =>
      cases (world.sinks.get ((world.contexts.get context).sink stream)).write text with
      | error reason => exact ⟨rfl, alike⟩
      | ok written => exact ⟨rfl, (compiling context pairs).quiet (.setSinks _) alike⟩

theorem modifyExecutable (alike : Alike context pairs world other) (id : ExecutableId)
    {change : Executable → Executable}
    (keeps : ∀ executable, (change executable).segments = executable.segments) :
    Alike context pairs (world.modifyExecutable id change) (other.modifyExecutable id change) where
  indistinct := by
    refine ⟨?_, alike.indistinct.contexts⟩
    conv_lhs => rw [alike.indistinct.rest]
    rfl
  speaks := by
    have same : SameAdapters world (world.modifyExecutable id change) := ⟨rfl, rfl⟩
    refine ⟨fun registry => same.univocal (alike.speaks.univocal registry),
      fun registry => same.miniRegistry (alike.speaks.mini registry), ?_⟩
    intro executable member
    obtain ⟨index, found⟩ := List.mem_iff_getElem?.1 member
    change (world.executables.items.modify id.index change)[index]? = some executable at found
    rw [List.getElem?_modify] at found
    obtain ⟨before, there, rfl⟩ := Option.map_eq_some_iff.1 found
    have speak := alike.speaks.compiled before (List.mem_iff_getElem?.2 ⟨index, there⟩)
    split
    · rw [keeps]
      exact speak
    · exact speak
  current := alike.current
  known := alike.known
  unreleased := alike.unreleased
  pairs := alike.pairs

theorem speakMini_get (alike : Alike context pairs world other) (id : ExecutableId) :
    SpeakMini (world.executables.get id).segments := by
  unfold Arena.get
  rw [List.getD_eq_getElem?_getD]
  cases found : world.executables.items[id.index]? with
  | none =>
      intro _ _ _ _ _ member
      cases member
  | some executable =>
      exact alike.speaks.compiled executable (List.mem_iff_getElem?.2 ⟨id.index, found⟩)

theorem withCurrent_agree {first second : HostM ε α}
    (agree : Agree (Alike context pairs) first second) :
    Agree (Alike context pairs) (withCurrent context first) (withCurrent context second) := by
  intro world other alike
  have holdings : other.holdings = world.holdings := by rw [alike.indistinct.rest]
  have current : other.current = some context := by
    rw [alike.indistinct.rest]
    exact alike.current
  have entered {state : World} (current : state.current = some context) :
      state.entering context =
        { state with holdings := Holdings.union { contexts := [context] } state.holdings } := by
    cases state
    cases current
    rfl
  have left {state behind : World} (current : state.current = some context)
      (currentBehind : behind.current = some context) :
      behind.leaving state = { behind with holdings := state.holdings } := by
    cases behind
    cases currentBehind
    rw [World.leaving, current]
  rw [AgreeFrom, HostM.eval_withCurrent, HostM.eval_withCurrent, entered alike.current,
    entered current, holdings]
  obtain ⟨sameOutcome, alikeBehind⟩ :=
    agree _ _ ((compiling context pairs).quiet (.hold _) alike)
  refine ⟨sameOutcome, ?_⟩
  have currentBehind := alikeBehind.current
  dsimp only
  rw [left alike.current currentBehind, left current, holdings]
  · exact (compiling context pairs).quiet (.hold _) alikeBehind
  · rw [alikeBehind.indistinct.rest]
    exact currentBehind

theorem noteUse_agree (executable : ExecutableId) :
    Agree (Alike context pairs) (noteUse executable : HostM ε Unit) (noteUse executable) := by
  refine (compiling context pairs).readClock_agree.bind fun now => ?_
  exact .modify fun _ _ alike => alike.modifyExecutable executable fun _ => rfl

theorem recordDependency_agree {document other : Executable} (same : SameProgram document other)
    (name : String) :
    Agree (Alike context pairs) (recordDependency document name)
      (recordDependency other name) := by
  have fetched (name : String) : Agree (Alike context pairs)
      ((fetchDocument name).attempt : HostM ExecutionError _) (fetchDocument name).attempt :=
    ((compiling context pairs).fetchDocument_agree name).attempt
  unfold recordDependency
  rw [← same.documentName, ← same.partition]
  refine (compiling context pairs).get_agree fun world contexts alike => ?_
  refine .ite Iff.rfl (fun _ => ?_) fun _ => .pure alike ()
  refine ((fetched document.documentName).bind fun includer => ?_) _ _ alike
  cases includer with
  | error _ => exact (fetched name).bind fun _ => .pure ()
  | ok includer =>
      refine (fetched name).bind fun included => ?_
      cases included with
      | error _ => exact .pure ()
      | ok included => exact (compiling context pairs).modify_agree (.linkDependency _ _)

/-- Nothing excuses a failure. -/
theorem agreeUnless_iff {first second : HostM ε α} {Related : World → World → Prop} :
    AgreeUnless Related (fun _ => False) first second ↔ Agree Related first second := by
  refine ⟨fun agree world other related => ?_, .of_agree⟩
  rcases agree world other related with agree | ⟨-, none⟩ | ⟨-, none⟩
  · exact agree
  · exact none.elim
  · exact none.elim

/-- Runs that begin alike go in lockstep. -/
theorem lockstep (context : ContextId) :
    Lockstep (Alike context) (fun _ => False) context context where
  weaken alike := { alike with pairs := fun pair member => alike.pairs pair (by simp [member]) }
  program {pairs world other first second} alike known := by
    obtain rfl : first = second := alike.pairs _ known
    refine ⟨?_, alike.speakMini_get first⟩
    rw [alike.indistinct.rest]
    exact ⟨rfl, rfl, rfl, rfl⟩
  marks alike := alike.marks_eq
  depth alike := by rw [alike.indistinct.rest]
  setDepth includeDepth alike := (compiling _ _).quiet (.setDepth includeDepth) alike
  excuseDepth _ none := none
  source alike := by rw [alike.indistinct.rest]
  serve {pairs request} _ _ _ _ makes noInclude := by
    cases makes with
    | includeDocument name => exact absurd rfl (noInclude name)
    | write stream text => exact (writeText_agree stream text).convert _
    | readAttribute name => exact (onContext_agree (.attribute? name)).convert _
    | setAttribute name value => exact (onContext_agree (.setAttribute name value)).convert _
    | findService name => exact (onContext_agree (.service? name)).convert _
    | setService name service => exact (onContext_agree (.setService name service)).convert _
    | readGlobal name => exact (compiling _ _).get_agree fun _ _ alike => .pure alike _
    | setGlobal name value =>
        refine (compiling _ _).get_agree fun world contexts alike => ?_
        exact (AgreeFrom.set ((compiling _ _).quiet (.setGlobals _) alike)).bind fun _ => .pure _
  addAdapter adapter := (onContext_agree (.addAdapter adapter)).convert _
  current agree := agreeUnless_iff.2 (withCurrent_agree (agreeUnless_iff.1 agree))
  keep {pairs held otherHeld first second} known agree := by
    refine agreeUnless_iff.2 fun world other alike => ?_
    obtain rfl : held = otherHeld := alike.pairs _ known
    exact (compiling _ _).keeping_agree _ (agreeUnless_iff.1 agree) world other alike
  use {pairs first second} known := by
    intro world other alike
    obtain rfl : first = second := alike.pairs _ known
    exact noteUse_agree first world other alike
  obtain {pairs world other first second} name alike known := by
    intro setting
    obtain ⟨sameOutcome, alikeBehind⟩ : AgreeFrom (Alike context pairs) world other
        (obtainExecutable setting name) (obtainExecutable setting name) :=
      (compiling context pairs).obtainExecutable_agree name world other alike
    rcases evaluated : (obtainExecutable setting name).eval world with ⟨outcome, behind⟩
    rcases otherEvaluated : (obtainExecutable setting name).eval other with
      ⟨otherOutcome, otherBehind⟩
    rw [evaluated, otherEvaluated] at sameOutcome alikeBehind
    dsimp only at sameOutcome alikeBehind
    subst sameOutcome
    cases outcome with
    | ok found =>
        refine .inl ⟨found, found, behind, otherBehind, rfl, rfl, ?_⟩
        exact { alikeBehind with pairs := List.forall_mem_cons.2 ⟨rfl, alikeBehind.pairs⟩ }
    | error error => exact .inr (.inl ⟨error, behind, otherBehind, rfl, rfl, alikeBehind⟩)
  record name same := recordDependency_agree same name

end Alike

end DocumentHost
