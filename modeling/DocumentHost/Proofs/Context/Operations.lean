import DocumentHost.Host.Context

/-!
# Operations on a context

All operations on a context that leave alone what it is bound to, as data.  They differ in
what they answer, in what they change, and in whether a frozen context permits them; a check
on the marks comes first in each of them.  So what the marks forbid is said once for all.
-/

namespace DocumentHost.Context

/-- What can be asked of a context, or done to it. -/
inductive Operation where
  | freeze
  | attribute? (name : String)
  | setAttribute (name : String) (value : Json)
  | allAttributes
  | removeAttribute (name : String)
  | service? (name : String)
  | setService (name : String) (service : Service)
  | removeService (name : String)
  | setSink (stream : Stream) (sink : SinkId)
  | lastAdapter?
  | allAdapters
  | addAdapter (adapter : AdapterId)

namespace Operation

/-- What an operation answers with. -/
abbrev Value : Operation → Type
  | .freeze | .setSink _ _ | .addAdapter _ => Unit
  | .attribute? _ | .setAttribute _ _ | .removeAttribute _ => Option Json
  | .allAttributes => List (String × Json)
  | .service? _ | .setService _ _ | .removeService _ => Option Service
  | .lastAdapter? => Option AdapterId
  | .allAdapters => List AdapterId

/-- Carry out an operation. -/
def run : (operation : Operation) → Context → Except ContextError (operation.Value × Context)
  | .freeze => Context.freeze
  | .attribute? name => Context.attribute? name
  | .setAttribute name value => Context.setAttribute name value
  | .allAttributes => Context.allAttributes
  | .removeAttribute name => Context.removeAttribute name
  | .service? name => Context.service? name
  | .setService name service => Context.setService name service
  | .removeService name => Context.removeService name
  | .setSink stream sink => Context.setSink stream sink
  | .lastAdapter? => Context.lastAdapter?
  | .allAdapters => Context.allAdapters
  | .addAdapter adapter => Context.addAdapter adapter

/-- The operations that change attributes, services or sinks. -/
def mutates : Operation → Bool
  | .setAttribute _ _ | .removeAttribute _ | .setService _ _ | .removeService _
  | .setSink _ _ => true
  | .freeze | .attribute? _ | .allAttributes | .service? _ | .lastAdapter? | .allAdapters
  | .addAdapter _ => false

/-- The operations that only look. -/
def reads : Operation → Bool
  | .attribute? _ | .allAttributes | .service? _ | .lastAdapter? | .allAdapters => true
  | .freeze | .setAttribute _ _ | .removeAttribute _ | .setService _ _ | .removeService _
  | .setSink _ _ | .addAdapter _ => false

/-- The adapter that an operation records. -/
def adds? : Operation → Option AdapterId
  | .addAdapter adapter => some adapter
  | _ => none

/-- The answer of an operation that the marks permit. -/
def answer : (operation : Operation) → Context → operation.Value
  | .freeze, _ | .setSink _ _, _ | .addAdapter _, _ => ()
  | .attribute? name, context | .setAttribute name _, context
  | .removeAttribute name, context => context.attributes.get? name
  | .allAttributes, context => context.attributes.sorted
  | .service? name, context | .setService name _, context
  | .removeService name, context => context.services.get? name
  | .lastAdapter?, context => context.lastAdapter
  | .allAdapters, context => context.adapters

/-- What an operation that the marks permit makes of a context. -/
def change : Operation → Context → Context
  | .freeze, context => { context with frozen := true }
  | .setAttribute name value, context =>
      { context with attributes := context.attributes.insert name value }
  | .removeAttribute name, context =>
      { context with attributes := context.attributes.erase name }
  | .setService name service, context =>
      { context with services := context.services.insert name service }
  | .removeService name, context => { context with services := context.services.erase name }
  | .setSink .output sink, context => { context with output := sink }
  | .setSink .error sink, context => { context with errorOutput := sink }
  | .addAdapter adapter, context =>
      { context with
        adapters := if context.adapters.contains adapter then context.adapters
          else context.adapters ++ [adapter]
        lastAdapter := some adapter }
  | .attribute? _, context | .allAttributes, context | .service? _, context
  | .lastAdapter?, context | .allAdapters, context => context

variable {context changed : Context} {operation : Operation} {value : operation.Value}

/-- The marks are looked at before anything else; released contexts refuse everything, frozen
ones what mutates them. -/
theorem run_eq (operation : Operation) (context : Context) :
    operation.run context =
      if context.released then .error .released
      else if operation.mutates && context.frozen then .error .frozen
      else .ok (operation.answer context, operation.change context) := by
  cases operation with
  | setSink stream sink =>
      cases stream <;> cases released : context.released <;> cases frozen : context.frozen <;>
        simp [run, mutates, answer, change, Context.setSink, ensureMutable, ensureOpen, released,
          frozen] <;> rfl
  | _ =>
      cases released : context.released <;> cases frozen : context.frozen <;>
        simp [run, mutates, answer, change, Context.freeze, Context.attribute?,
          Context.setAttribute, Context.allAttributes, Context.removeAttribute, Context.service?,
          Context.setService, Context.removeService, Context.lastAdapter?, Context.allAdapters,
          Context.addAdapter, ensureMutable, ensureOpen, released, frozen] <;> rfl

theorem run_of_released (released : context.released = true) (operation : Operation) :
    operation.run context = .error .released := by
  rw [run_eq, if_pos released]

theorem run_of_frozen (unreleased : context.released = false) (frozen : context.frozen = true)
    (mutates : operation.mutates = true) : operation.run context = .error .frozen := by
  rw [run_eq, if_neg (by simp [unreleased]), if_pos (by simp [mutates, frozen])]

/-- What does not mutate a context is not kept from it by its being frozen. -/
theorem run_of_unreleased (unreleased : context.released = false)
    (sparing : operation.mutates = false) :
    operation.run context = .ok (operation.answer context, operation.change context) := by
  rw [run_eq, if_neg (by simp [unreleased]), if_neg (by simp [sparing])]

/-- What is permitted, and done. -/
theorem permitted_of_run (done : operation.run context = .ok (value, changed)) :
    context.released = false ∧ (operation.mutates = true → context.frozen = false) ∧
      value = operation.answer context ∧ changed = operation.change context := by
  rw [run_eq] at done
  split at done
  · cases done
  split at done
  · cases done
  · rename_i unreleased unhindered
    cases done
    refine ⟨by simpa using unreleased, fun mutates => ?_, rfl, rfl⟩
    simpa [mutates] using unhindered

theorem change_of_reads (reads : operation.reads = true) : operation.change context = context := by
  cases operation with
  | attribute? | allAttributes | service? | lastAdapter? | allAdapters => rfl
  | freeze | setAttribute | removeAttribute | setService | removeService | setSink | addAdapter =>
      cases reads

/-- Marks are only set, and never those that tell of bindings and releases. -/
theorem marks_of_change (operation : Operation) (context : Context) :
    (operation.change context).released = context.released ∧
      (operation.change context).releasing = context.releasing ∧
      (operation.change context).enterableFor = context.enterableFor ∧
      (context.frozen = true → (operation.change context).frozen = true) := by
  cases operation with
  | freeze => exact ⟨rfl, rfl, rfl, fun _ => rfl⟩
  | setSink stream sink => cases stream <;> exact ⟨rfl, rfl, rfl, id⟩
  | _ => exact ⟨rfl, rfl, rfl, id⟩

/-- Only mutations change attributes, services and sinks. -/
theorem data_of_change (sparing : operation.mutates = false) (context : Context) :
    (operation.change context).attributes = context.attributes ∧
      (operation.change context).services = context.services ∧
      (operation.change context).output = context.output ∧
      (operation.change context).errorOutput = context.errorOutput := by
  cases operation with
  | freeze | attribute? | allAttributes | service? | lastAdapter? | allAdapters | addAdapter =>
      exact ⟨rfl, rfl, rfl, rfl⟩
  | setAttribute | removeAttribute | setService | removeService | setSink => cases sparing

theorem adapters_of_change (operation : Operation) (context : Context) :
    (operation.change context).adapters =
      match operation.adds? with
      | some adapter =>
          if adapter ∈ context.adapters then context.adapters else context.adapters ++ [adapter]
      | none => context.adapters := by
  cases operation with
  | setSink stream sink => cases stream <;> rfl
  | addAdapter adapter => simp [change, adds?]
  | _ => rfl

theorem lastAdapter_of_change (operation : Operation) (context : Context) :
    (operation.change context).lastAdapter = operation.adds?.or context.lastAdapter := by
  cases operation with
  | setSink stream sink => cases stream <;> rfl
  | _ => rfl

end Operation

/-! ## The life of a context -/

/-- What holds of a context whenever nobody is in the middle of releasing it. -/
structure Orderly (context : Context) : Prop where
  enterable : context.enterableFor ≠ none → context.frozen = true
  releasing : context.releasing = context.released
  distinct : context.adapters.Nodup
  spent : context.released = true → context.adapters = []

/-- What never comes undone in the life of a context. -/
structure Onwards (before after : Context) : Prop where
  released : before.released = true → after = before
  frozen : before.frozen = true → after.frozen = true
  enterable : ∀ executable, before.enterableFor = some executable →
    after.enterableFor = some executable
  attributes : before.frozen = true → after.attributes = before.attributes
  services : before.frozen = true → after.services = before.services
  output : before.frozen = true → after.output = before.output
  errorOutput : before.frozen = true → after.errorOutput = before.errorOutput

variable {context changed between after : Context}

theorem orderly_default : Orderly default :=
  ⟨nofun, rfl, List.nodup_nil, nofun⟩

theorem Onwards.refl (context : Context) : Onwards context context :=
  ⟨fun _ => rfl, id, fun _ => id, fun _ => rfl, fun _ => rfl, fun _ => rfl, fun _ => rfl⟩

theorem Onwards.trans (first : Onwards context between) (second : Onwards between after) :
    Onwards context after where
  released released := by
    have same := first.released released
    rw [same] at second
    exact second.released released
  frozen frozen := second.frozen (first.frozen frozen)
  enterable executable bound := second.enterable executable (first.enterable executable bound)
  attributes frozen := (second.attributes (first.frozen frozen)).trans (first.attributes frozen)
  services frozen := (second.services (first.frozen frozen)).trans (first.services frozen)
  output frozen := (second.output (first.frozen frozen)).trans (first.output frozen)
  errorOutput frozen :=
    (second.errorOutput (first.frozen frozen)).trans (first.errorOutput frozen)

/-- While it is not released, only the record of its adapters changes in a bound context. -/
theorem Onwards.eq_of_unreleased (onwards : Onwards context after) (orderly : context.Orderly)
    (orderlyAfter : after.Orderly) {executable : ExecutableId}
    (bound : context.enterableFor = some executable) (unreleased : after.released = false) :
    after = { context with adapters := after.adapters, lastAdapter := after.lastAdapter } := by
  have frozen : context.frozen = true := orderly.enterable (by rw [bound]; nofun)
  have before : context.released = false := by
    cases released : context.released with
    | false => rfl
    | true =>
        rw [onwards.released released, released] at unreleased
        cases unreleased
  have releasing : after.releasing = context.releasing := by
    rw [orderlyAfter.releasing, orderly.releasing, unreleased, before]
  have sameBond := onwards.enterable executable bound
  rw [← bound] at sameBond
  have sameMark := (onwards.frozen frozen).trans frozen.symm
  have sameRelease := unreleased.trans before.symm
  cases context
  cases after
  simp only [Context.mk.injEq] at *
  exact ⟨onwards.attributes frozen, onwards.services frozen, trivial, trivial,
    onwards.output frozen, onwards.errorOutput frozen, sameMark, sameRelease, releasing, sameBond⟩

theorem Orderly.operate (orderly : context.Orderly) {operation : Operation}
    {value : operation.Value} (done : operation.run context = .ok (value, changed)) :
    changed.Orderly := by
  obtain ⟨unreleased, -, -, rfl⟩ := Operation.permitted_of_run done
  obtain ⟨released, releasing, enterableFor, frozen⟩ := operation.marks_of_change context
  refine ⟨fun bound => ?_, ?_, ?_, fun isReleased => ?_⟩
  · rw [enterableFor] at bound
    exact frozen (orderly.enterable bound)
  · rw [releasing, released, orderly.releasing]
  · rw [operation.adapters_of_change]
    split
    · split
      · exact orderly.distinct
      · rename_i new
        exact List.nodup_append.2 ⟨orderly.distinct, List.pairwise_singleton _ _, by
          intro adapter member other isNew same
          rw [List.mem_singleton.1 isNew] at same
          exact new (same ▸ member)⟩
    · exact orderly.distinct
  · rw [released, unreleased] at isReleased
    cases isReleased

theorem Onwards.operate {operation : Operation} {value : operation.Value}
    (done : operation.run context = .ok (value, changed)) : Onwards context changed := by
  obtain ⟨unreleased, sparing, -, rfl⟩ := Operation.permitted_of_run done
  obtain ⟨-, -, enterableFor, frozen⟩ := operation.marks_of_change context
  have spares (isFrozen : context.frozen = true) : operation.mutates = false := by
    rw [← Bool.not_eq_true]
    intro mutates
    rw [sparing mutates] at isFrozen
    cases isFrozen
  have data (isFrozen : context.frozen = true) := Operation.data_of_change (spares isFrozen) context
  refine ⟨fun released => ?_, frozen, fun executable bound => enterableFor.trans bound,
    fun isFrozen => (data isFrozen).1, fun isFrozen => (data isFrozen).2.1,
    fun isFrozen => (data isFrozen).2.2.1, fun isFrozen => (data isFrozen).2.2.2⟩
  rw [unreleased] at released
  cases released

/-! ## Binding -/

theorem bindEnterable_eq (executable : ExecutableId) (context : Context) :
    context.bindEnterable executable =
      if context.released then .error .released
      else if context.enterableFor.isSome then .error .alreadyEnterable
      else .ok ((), { context with enterableFor := some executable, frozen := true }) := by
  unfold Context.bindEnterable Context.ensureOpen
  by_cases released : context.released = true
  · rw [if_pos released, if_pos released]
    rfl
  · rw [if_neg released, if_neg released]
    rfl

/-- What is permitted when a context is bound, and done. -/
theorem permitted_of_bindEnterable {executable : ExecutableId}
    (done : Context.bindEnterable executable context = .ok ((), changed)) :
    context.released = false ∧ context.enterableFor = none ∧
      changed = { context with enterableFor := some executable, frozen := true } := by
  rw [bindEnterable_eq] at done
  split at done
  · cases done
  split at done
  · cases done
  · rename_i unreleased unbound
    cases done
    exact ⟨by simpa using unreleased, by simpa using unbound, rfl⟩

theorem Orderly.bind (orderly : context.Orderly) {executable : ExecutableId}
    (done : Context.bindEnterable executable context = .ok ((), changed)) : changed.Orderly := by
  obtain ⟨-, -, rfl⟩ := permitted_of_bindEnterable done
  exact ⟨fun _ => rfl, orderly.releasing, orderly.distinct, orderly.spent⟩

theorem Onwards.bind {executable : ExecutableId}
    (done : Context.bindEnterable executable context = .ok ((), changed)) :
    Onwards context changed := by
  obtain ⟨unreleased, unbound, rfl⟩ := permitted_of_bindEnterable done
  refine ⟨fun released => ?_, fun _ => rfl, fun owner bound => ?_, fun _ => rfl, fun _ => rfl,
    fun _ => rfl, fun _ => rfl⟩
  · rw [unreleased] at released
    cases released
  · rw [unbound] at bound
    cases bound

/-! ## Release -/

/-- A context that has been released. -/
def spent (context : Context) : Context :=
  { context with releasing := true, adapters := [], released := true }

theorem Orderly.release (orderly : context.Orderly) : context.spent.Orderly :=
  ⟨orderly.enterable, rfl, List.nodup_nil, fun _ => rfl⟩

theorem Onwards.release (unreleased : context.released = false) :
    Onwards context context.spent := by
  refine ⟨fun released => ?_, id, fun _ => id, fun _ => rfl, fun _ => rfl, fun _ => rfl,
    fun _ => rfl⟩
  rw [unreleased] at released
  cases released

end DocumentHost.Context
