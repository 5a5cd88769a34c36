import DocumentHost.Language.Echo
import DocumentHost.Proofs.Context.Life

/-!
# Entering again

A bound context is entered through the adapter that has been recorded in it last.  Entries, and
whatever else is done with a host, leave a bound context as it was but for its record of
adapters.  So an entry goes where the first one went as long as no other adapter has been
recorded since; a document in another language that an entry point includes makes it go
elsewhere.
-/

namespace DocumentHost

/-- The adapter that is recorded last for a context behind some records, given the one before
them. -/
def recordedLast (id : ContextId) (before : Option AdapterId)
    (added : List (ContextId × AdapterId)) : Option AdapterId :=
  added.foldl (fun last record => if record.1 = id then some record.2 else last) before

section Records

variable {id : ContextId} {before : Option AdapterId} {added : List (ContextId × AdapterId)}

theorem recordedLast_append (more : List (ContextId × AdapterId)) :
    recordedLast id before (added ++ more) =
      recordedLast id (recordedLast id before added) more :=
  List.foldl_append

theorem recordedLast_of_none_here (elsewhere : ∀ adapter, (id, adapter) ∉ added) :
    recordedLast id before added = before := by
  induction added with
  | nil => rfl
  | cons record rest ih =>
      obtain ⟨place, adapter⟩ := record
      have other : place ≠ id := by
        rintro rfl
        exact elsewhere adapter (by simp)
      have skipped : recordedLast id before ((place, adapter) :: rest) =
          recordedLast id before rest := by
        simp [recordedLast, other]
      rw [skipped]
      exact ih fun adapter member => elsewhere adapter (List.mem_cons_of_mem _ member)

/-- Recording one adapter again and again changes nothing. -/
theorem recordedLast_of_same (same : ∀ adapter, (id, adapter) ∈ added → before = some adapter) :
    recordedLast id before added = before := by
  induction added with
  | nil => rfl
  | cons record rest ih =>
      obtain ⟨place, adapter⟩ := record
      have first : recordedLast id before ((place, adapter) :: rest) =
          recordedLast id before rest := by
        by_cases here : place = id
        · subst here
          simp [recordedLast, ← same adapter (by simp)]
        · simp [recordedLast, here]
      rw [first]
      exact ih fun adapter member => same adapter (List.mem_cons_of_mem _ member)

end Records

namespace World

variable {world after : World} {added : List (ContextId × AdapterId)} {id : ContextId}

/-! ## What a course leaves of a context -/

theorem Move.lastAdapter (move : Move world added after) (known : id.index < world.contexts.size) :
    (after.contexts.get id).lastAdapter =
      recordedLast id (world.contexts.get id).lastAdapter added := by
  cases move with
  | beside undisturbed =>
      rw [undisturbed.contexts]
      rfl
  | make output errorOutput =>
      rw [Arena.get_add_of_lt _ _ known]
      rfl
  | @operate place there operation value changed done =>
      obtain ⟨-, -, -, rfl⟩ := Context.Operation.permitted_of_run done
      by_cases here : id = place
      · subst here
        rw [modifyContext, Arena.get_modify_self _ _ there, operation.lastAdapter_of_change]
        cases operation.adds? with
        | none => rfl
        | some adapter => simp [recordedLast]
      · rw [modifyContext, Arena.get_modify_of_ne _ _ here]
        refine (recordedLast_of_none_here fun adapter member => ?_).symm
        obtain ⟨other, -, same⟩ := List.mem_map.1 member
        exact here (congrArg Prod.fst same).symm
  | @bind place there executable changed done =>
      obtain ⟨-, -, rfl⟩ := Context.permitted_of_bindEnterable done
      exact Arena.map_get_modify Context.lastAdapter world.contexts place rfl id
  | @release place there unbegun =>
      rw [contexts_releaseNow]
      exact Arena.map_get_modify Context.lastAdapter world.contexts place rfl id

theorem Move.adapter_eq (move : Move world added after) {adapter : AdapterId}
    (known : adapter.index < world.adapters.size) :
    adapter.index < after.adapters.size ∧
      (after.adapters.get adapter).adapter = (world.adapters.get adapter).adapter := by
  cases move with
  | beside undisturbed => exact undisturbed.adapters adapter known
  | make | operate | bind => exact ⟨known, rfl⟩
  | release there unbegun =>
      rw [adapters_releaseNow]
      exact ⟨known, rfl⟩

/-- By induction on the course. -/
theorem Course.lastAdapter (course : Course world added after)
    (known : id.index < world.contexts.size) :
    (after.contexts.get id).lastAdapter =
      recordedLast id (world.contexts.get id).lastAdapter added := by
  induction course with
  | refl => rfl
  | tail course move ih =>
      have grown := Moves.contexts_size ⟨_, course⟩
      rw [recordedLast_append, ← ih, move.lastAdapter (Nat.lt_of_lt_of_le known grown)]

/-- By induction on the course. -/
theorem Course.adapter_eq (course : Course world added after) {adapter : AdapterId}
    (known : adapter.index < world.adapters.size) :
    adapter.index < after.adapters.size ∧
      (after.adapters.get adapter).adapter = (world.adapters.get adapter).adapter := by
  induction course with
  | refl => exact ⟨known, rfl⟩
  | tail course move ih =>
      obtain ⟨stillKnown, same⟩ := ih
      obtain ⟨knownAfter, sameAfter⟩ := move.adapter_eq stillKnown
      exact ⟨knownAfter, sameAfter.trans same⟩

end World

/-! ## Where an entry goes -/

/-- Run an entry point of an adapter in a context for an executable. -/
def enterBy (adapter : Adapter) (executable : ExecutableId) (context : ContextId) (entry : String)
    (arguments : List Json) : HostM ExecutionError Json := do
  let value ← withCurrent context (runFor executable context (adapter.enter entry arguments))
  noteUse executable
  return value

section Entry

variable {world : World} {executable : ExecutableId} {key entry : String} {context : ContextId}
  {arguments : List Json}

theorem eval_lastAdapter? (unreleased : (world.contexts.get context).released = false) :
    (inContext context Context.lastAdapter?).eval world =
      (.ok (world.contexts.get context).lastAdapter, world) :=
  HostM.eval_convert_of_ok (World.eval_read_of_unreleased unreleased .lastAdapter? rfl)

theorem eval_enter_of_unrecorded (keyed : world.bound? executable key = some context)
    (own : (world.contexts.get context).enterableFor = some executable)
    (unreleased : (world.contexts.get context).released = false)
    (unrecorded : (world.contexts.get context).lastAdapter = none) :
    (enter executable key entry arguments).eval world =
      (.error (.ofContext .noAdapter), world) := by
  rw [eval_enter_of_bound keyed own]
  refine HostM.eval_bind_of_error ?_
  rw [enterContext, HostM.eval_bind_of_ok (eval_lastAdapter? unreleased), unrecorded]
  rfl

theorem eval_enter_of_recorded (keyed : world.bound? executable key = some context)
    (own : (world.contexts.get context).enterableFor = some executable)
    (unreleased : (world.contexts.get context).released = false) {adapter : AdapterId}
    (recorded : (world.contexts.get context).lastAdapter = some adapter) :
    (enter executable key entry arguments).eval world =
      (enterBy (world.adapters.get adapter).adapter executable context entry arguments).eval
        world := by
  have inside : (enterContext executable context entry arguments).eval world =
      (withCurrent context (runFor executable context
        ((world.adapters.get adapter).adapter.enter entry arguments))).eval world := by
    rw [enterContext, HostM.eval_bind_of_ok (eval_lastAdapter? unreleased), recorded]
    dsimp only
    rw [HostM.eval_withCurrent, HostM.eval_withCurrent, HostM.eval_bind_of_ok (HostM.eval_get _)]
    rfl
  rw [eval_enter_of_bound keyed own, enterBy, HostM.eval_bind, HostM.eval_bind, inside]

end Entry

open World

/-- Whatever is done with a host while a context is bound: but for its record of adapters the
context stays as it is, and an entry runs the entry point of the adapter that has been recorded
in it last, as this adapter has been all the time.  It is the one that the first entry goes to
if no other one has been recorded since. -/
theorem enters_recorded_last {origin world later : World}
    {before added : List (ContextId × AdapterId)} (untouched : origin.Untouched)
    (earlier : Course origin before world) (course : Course world added later)
    {executable : ExecutableId} {key : String} {id : ContextId}
    (bound : (world.contexts.get id).enterableFor = some executable)
    (keyed : later.bound? executable key = some id)
    (unreleased : (later.contexts.get id).released = false) :
    (∃ adapters, later.contexts.get id =
      { world.contexts.get id with
        adapters
        lastAdapter := recordedLast id (world.contexts.get id).lastAdapter added }) ∧
    (∀ entry arguments, recordedLast id (world.contexts.get id).lastAdapter added = none →
      (enter executable key entry arguments).eval later =
        (.error (.ofContext .noAdapter), later)) ∧
    (∀ entry arguments adapter,
      recordedLast id (world.contexts.get id).lastAdapter added = some adapter →
        (enter executable key entry arguments).eval later =
          (enterBy (later.adapters.get adapter).adapter executable id entry arguments).eval
            later) ∧
    (∀ adapter, adapter.index < world.adapters.size →
      (later.adapters.get adapter).adapter = (world.adapters.get adapter).adapter) ∧
    ((∀ adapter, (id, adapter) ∈ added → (world.contexts.get id).lastAdapter = some adapter) →
      recordedLast id (world.contexts.get id).lastAdapter added =
        (world.contexts.get id).lastAdapter) := by
  have start : (origin.contexts.get id).Orderly := by
    rw [untouched.get_eq]
    exact Context.orderly_default
  have orderly := (earlier.onwards start).1
  obtain ⟨orderlyLater, onwards⟩ := course.onwards orderly
  have known : id.index < world.contexts.size := by
    by_contra unknown
    rw [Arena.get_of_unknown _ unknown] at bound
    cases bound
  have last := course.lastAdapter known
  have own := onwards.enterable executable bound
  refine ⟨⟨(later.contexts.get id).adapters, ?_⟩, fun entry arguments unrecorded => ?_,
    fun entry arguments adapter recorded => ?_, fun adapter there => (course.adapter_eq there).2,
    recordedLast_of_same⟩
  · rw [← last]
    exact onwards.eq_of_unreleased orderly orderlyLater bound unreleased
  · exact eval_enter_of_unrecorded keyed own unreleased (last.trans unrecorded)
  · exact eval_enter_of_recorded keyed own unreleased (last.trans recorded)

section Bilingual

/-- A host that speaks two languages and keeps its documents in memory. -/
def bilingualHost : World where
  toLanguages := .of
    [⟨Mini.adapter (.ofTag "Mini" "mini"), true⟩, ⟨Echo.adapter (.ofTag "Echo" "echo") {}, true⟩]
    [[⟨0⟩, ⟨1⟩]]
  source := some (.inMemory "m")
  sinks := ⟨[{}, {}]⟩

/-- Two entry points, one of which includes a document in the other language. -/
def routines : Document where
  name := "x"
  text := "<% def greet \x7b include \"greeting\" \x7d def count \x7b return 1 \x7d %>"
  timestamp := ⟨0⟩

/-- The document that is included is in the source, and the two entry points are compiled. -/
def routinesCompiled : World :=
  ((newExecutable
    { registry := ⟨0⟩, sourced := true
      options := { parser := scriptletsParser, defaultTag := some "mini" } } routines).eval
    ((putDocument "greeting" "<%echo hi%>" "" : HostM Empty _).eval bilingualHost).2).2

/-- The entry points have been bound. -/
def routinesBound : World :=
  ((bindEnterable ⟨0⟩ "k" ⟨0⟩).eval
    ((newContext ⟨0⟩ ⟨1⟩ : HostM Empty ContextId).eval routinesCompiled).2).2

/-- One of them has been entered. -/
def routinesEntered : World :=
  ((enter ⟨0⟩ "k" "greet" []).eval routinesBound).2

theorem moves_routinesBound : Moves bilingualHost routinesBound := by
  have put : Moves bilingualHost
      ((putDocument "greeting" "<%echo hi%>" "" : HostM Empty _).eval bilingualHost).2 :=
    (Uses.put "greeting" "<%echo hi%>" "").moves
  have compiled : Moves bilingualHost routinesCompiled :=
    Moves.lasting.trans put (Uses.compile _ routines).moves
  have made := Moves.lasting.trans compiled (Uses.makeContext ⟨0⟩ ⟨1⟩).moves
  exact Moves.lasting.trans made (Uses.makeEnterable ⟨0⟩ "k" ⟨0⟩ none none nofun).moves

theorem enters_recorded_last_echo :
    bilingualHost.Untouched ∧ ∃ added, Course routinesBound added routinesEntered ∧
      recordedLast ⟨0⟩ (routinesBound.contexts.get ⟨0⟩).lastAdapter added = some ⟨1⟩ ∧
      (enter ⟨0⟩ "k" "count" []).eval routinesEntered =
        (enterBy (Echo.adapter (.ofTag "Echo" "echo") {}) ⟨0⟩ ⟨0⟩ "count" []).eval
          routinesEntered := by
  have untouched : bilingualHost.Untouched := ⟨rfl, fun _ => rfl⟩
  obtain ⟨before, earlier⟩ := moves_routinesBound
  obtain ⟨added, course⟩ : Moves routinesBound routinesEntered :=
    (Uses.enter ⟨0⟩ "k" "greet" []).moves
  obtain ⟨own, keyed, unreleased, last⟩ :
      (routinesBound.contexts.get ⟨0⟩).enterableFor = some ⟨0⟩ ∧
        routinesEntered.bound? ⟨0⟩ "k" = some ⟨0⟩ ∧
        (routinesEntered.contexts.get ⟨0⟩).released = false ∧
        (routinesEntered.contexts.get ⟨0⟩).lastAdapter = some ⟨1⟩ := by decide +kernel
  obtain ⟨⟨adapters, kept⟩, -, goes, same, -⟩ :=
    enters_recorded_last untouched earlier course own keyed unreleased
  have recorded := (congrArg Context.lastAdapter kept).symm.trans last
  refine ⟨untouched, added, course, recorded, ?_⟩
  have there : (⟨1⟩ : AdapterId).index < bilingualHost.adapters.size := by decide
  obtain ⟨known, still⟩ := earlier.adapter_eq there
  rw [goes "count" [] ⟨1⟩ recorded, same ⟨1⟩ known, still]
  rfl

/-- An entry goes elsewhere, and returns something else, when another entry point has been
entered before it. -/
theorem enter_elsewhere_after_greeting :
    routinesBound.bound? ⟨0⟩ "k" = some ⟨0⟩ ∧ routinesEntered.bound? ⟨0⟩ "k" = some ⟨0⟩ ∧
      routinesBound.globals.sorted.isEmpty ∧ routinesEntered.globals.sorted.isEmpty ∧
      ((fetchDocument "greeting").eval routinesBound).1.toOption = some ⟨0⟩ ∧
      ((fetchDocument "greeting").eval routinesEntered).1.toOption = some ⟨0⟩ ∧
      (routinesEntered.descriptors.get ⟨0⟩).text = (routinesBound.descriptors.get ⟨0⟩).text ∧
      ((enter ⟨0⟩ "k" "count" []).eval routinesBound).1.toOption.map Json.compact = some "1" ∧
      ((enter ⟨0⟩ "k" "count" []).eval routinesEntered).1.toOption.map Json.compact =
        some "\"count/0\"" := by
  decide +kernel

end Bilingual

end DocumentHost
