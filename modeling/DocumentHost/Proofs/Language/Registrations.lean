import DocumentHost.Proofs.Arena
import DocumentHost.Proofs.Files.Pieces
import DocumentHost.Proofs.Host.Evaluation
import DocumentHost.Proofs.Language.Univocal

/-!
# Answers that follow the registrations

Which adapter a registry answers with is determined by the calls that registered adapters, in
their order: the first call about an adapter puts it into a registry, and every further one is
refused and changes nothing.  Among the adapters of a registry that declare what is asked for,
the one that the current context used last is kept; if there is none such, the one of highest
priority answers, and the earliest among equals.
-/

namespace DocumentHost

/-! ## The extension of a name -/

/-- The last component of a name has an extension that is not empty. -/
def ExtensionOf (name extension : String) : Prop :=
  extension ≠ "" ∧
    ∃ component, Path.LastComponent name component ∧ Path.HasExtension component extension

/-- The extension under which an adapter is looked up: that of the name, or else the one
given. -/
def SoughtExtension (name : String) (otherwise : Option String) (extension : String) : Prop :=
  ExtensionOf name extension ∨ (∀ other, ¬ExtensionOf name other) ∧ otherwise = some extension

theorem nameExtension?_eq_some_iff {name extension : String} :
    nameExtension? name = some extension ↔ ExtensionOf name extension := by
  obtain ⟨component, last, isLast⟩ := Path.exists_lastComponent name
  have unique {other : String} (otherLast : Path.LastComponent name other) :
      other = component := by
    rw [Path.getLast?_pieces.2 otherLast] at last
    exact Option.some.inj last
  have definition : nameExtension? name =
      (Path.splitExtension component).2.bind fun extension =>
        if extension = "" then none else some extension := by
    rw [Path.pieces] at last
    rw [nameExtension?, last, Option.getD_some]
    cases (Path.splitExtension component).2 <;> rfl
  rw [definition, Option.bind_eq_some_iff]
  constructor
  · rintro ⟨found, split, kept⟩
    by_cases empty : found = ""
    · simp [empty] at kept
    · rw [if_neg empty, Option.some.injEq] at kept
      subst kept
      exact ⟨empty, component, isLast, Path.splitExtension_eq_some_iff.1 split⟩
  · rintro ⟨some, other, otherLast, split⟩
    rw [unique otherLast] at split
    exact ⟨extension, Path.splitExtension_eq_some_iff.2 split, if_neg some⟩

theorem soughtExtension_iff {name extension : String} {otherwise : Option String} :
    (nameExtension? name).or otherwise = some extension ↔
      SoughtExtension name otherwise extension := by
  rw [SoughtExtension]
  simp only [← nameExtension?_eq_some_iff]
  cases nameExtension? name <;> simp

/-! ## Calls that register adapters -/

/-- A call that is to put an adapter into a registry. -/
structure Registration where
  registry : RegistryId
  adapter : AdapterId

/-- The registry that an adapter is in: that of the first call about it. -/
def registryOf? (calls : List Registration) (id : AdapterId) : Option RegistryId :=
  (calls.find? fun call => call.adapter = id).map Registration.registry

/-- The number of calls before the first about an adapter. -/
def turnOf (calls : List Registration) (id : AdapterId) : Nat :=
  calls.findIdx fun call => call.adapter = id

section Calls

variable {calls : List Registration} {id other : AdapterId}

theorem exists_registryOf?_iff :
    (∃ registry, registryOf? calls id = some registry) ↔ ∃ call ∈ calls, call.adapter = id := by
  rw [← Option.isSome_iff_exists, registryOf?, Option.isSome_map, List.find?_isSome]
  simp

/-- A further call says where an adapter is only if there was none about it. -/
theorem registryOf?_concat (call : Registration) :
    registryOf? (calls ++ [call]) id =
      (registryOf? calls id).or (if call.adapter = id then some call.registry else none) := by
  rw [registryOf?, registryOf?, List.find?_append]
  cases calls.find? fun call => call.adapter = id with
  | some first => rfl
  | none =>
      by_cases about : call.adapter = id <;> simp [about]

theorem turnOf_concat_of_called (call : Registration)
    (called : ∃ call ∈ calls, call.adapter = id) :
    turnOf (calls ++ [call]) id = turnOf calls id := by
  rw [turnOf, turnOf, List.findIdx_append, if_pos (List.findIdx_lt_length.2 (by simpa using called))]

theorem turnOf_lt_of_called (called : ∃ call ∈ calls, call.adapter = id) :
    turnOf calls id < calls.length :=
  List.findIdx_lt_length.2 (by simpa using called)

theorem turnOf_concat_of_uncalled (registry : RegistryId)
    (uncalled : ¬∃ call ∈ calls, call.adapter = id) :
    turnOf (calls ++ [⟨registry, id⟩]) id = calls.length := by
  have none : ¬calls.findIdx (fun call => call.adapter = id) < calls.length :=
    fun found => uncalled (by simpa using List.findIdx_lt_length.1 found)
  rw [turnOf, List.findIdx_append, if_neg none]
  simp

/-- The call of its turn is about an adapter. -/
theorem adapter_of_turnOf (called : turnOf calls id < calls.length) :
    (calls[turnOf calls id]?).map Registration.adapter = some id := by
  have found := List.findIdx_getElem (w := called)
  rw [decide_eq_true_eq] at found
  rw [List.getElem?_eq_getElem called, Option.map_some]
  exact congrArg some found

/-- Different adapters were registered in different turns. -/
theorem eq_of_turnOf_eq (called : ∃ call ∈ calls, call.adapter = id)
    (same : turnOf calls id = turnOf calls other) : id = other := by
  have found := turnOf_lt_of_called called
  have first := adapter_of_turnOf found
  rw [same] at found first
  rw [adapter_of_turnOf found] at first
  exact (Option.some.inj first).symm

end Calls

/-! ## Histories of registrations -/

namespace World

/-- No adapter has been registered. -/
structure Unregistered (world : World) : Prop where
  unclaimed : ∀ id, (world.adapters.get id).claimed = false
  empty : ∀ registry, world.registries.get registry = []

/-- From a state where no adapter has been registered these calls, in this order, have led to
another.  Between them adapters and registries are made, and everything else may change. -/
inductive Registers (origin : World) : List Registration → World → Prop
  | nothing : Registers origin [] origin
  | call {calls : List Registration} {world : World} (before : Registers origin calls world)
      (call : Registration) (registryKnown : call.registry.index < world.registries.size)
      (adapterKnown : call.adapter.index < world.adapters.size) :
      Registers origin (calls ++ [call])
        ((register call.registry call.adapter).eval world).2
  | adapter {calls : List Registration} {world : World} (before : Registers origin calls world)
      (adapter : Adapter) : Registers origin calls (world.addAdapter adapter).2
  | registry {calls : List Registration} {world : World}
      (before : Registers origin calls world) : Registers origin calls world.addRegistry.2
  | elsewhere {calls : List Registration} {world after : World}
      (before : Registers origin calls world) (same : SameAdapters world after) :
      Registers origin calls after

/-- The adapters and registries of a state are as some calls have left them. -/
structure Reflects (world : World) (calls : List Registration) : Prop where
  known : ∀ call ∈ calls,
    call.registry.index < world.registries.size ∧ call.adapter.index < world.adapters.size
  claimed : ∀ id, (world.adapters.get id).claimed = true ↔ ∃ call ∈ calls, call.adapter = id
  members : ∀ registry id,
    id ∈ world.registries.get registry ↔ registryOf? calls id = some registry
  ordered : ∀ registry, (world.registries.get registry).Pairwise
    fun first second => turnOf calls first < turnOf calls second

theorem Unregistered.reflects {world : World} (unregistered : world.Unregistered) :
    world.Reflects [] where
  known := by simp
  claimed id := by simp [unregistered.unclaimed id]
  members registry id := by simp [unregistered.empty registry, registryOf?]
  ordered registry := by simp [unregistered.empty registry]

/-- A call is refused just if the adapter is in a registry, and then nothing changes. -/
theorem eval_register (world : World) (registry : RegistryId) (id : AdapterId) :
    (register registry id).eval world =
      if (world.adapters.get id).claimed then
        (.error (.alreadyRegistered (world.profile id).name), world)
      else (.ok (), { world with toLanguages := world.toLanguages.enrol registry id }) := by
  rw [register, HostM.eval_bind_of_ok (HostM.eval_get world)]
  dsimp only
  cases (world.adapters.get id).claimed <;> rfl

namespace Reflects

variable {world : World} {calls : List Registration}

theorem called_of_mem (reflects : world.Reflects calls) {registry : RegistryId} {id : AdapterId}
    (member : id ∈ world.registries.get registry) : ∃ call ∈ calls, call.adapter = id :=
  exists_registryOf?_iff.1 ⟨registry, (reflects.members registry id).1 member⟩

theorem elsewhere (reflects : world.Reflects calls) {after : World}
    (same : SameAdapters world after) : after.Reflects calls := by
  obtain ⟨adapters, registries⟩ := same
  exact
    { known := adapters ▸ registries ▸ reflects.known
      claimed := adapters ▸ reflects.claimed
      members := registries ▸ reflects.members
      ordered := registries ▸ reflects.ordered }

theorem addAdapter (reflects : world.Reflects calls) (adapter : Adapter) :
    (world.addAdapter adapter).2.Reflects calls where
  known call member := by
    obtain ⟨registryKnown, adapterKnown⟩ := reflects.known call member
    refine ⟨registryKnown, Nat.lt_of_lt_of_eq (Nat.lt_succ_of_lt adapterKnown) ?_⟩
    exact (Arena.size_add _ _).symm
  claimed id := by
    rw [← reflects.claimed id]
    change (((world.adapters.add { adapter }).2.get id).claimed = true) ↔ _
    rw [Arena.get_add]
    split
    · rename_i new
      have unclaimed : ¬∃ call ∈ calls, call.adapter = id := by
        rintro ⟨call, member, rfl⟩
        have known := (reflects.known call member).2
        rw [new] at known
        exact Nat.lt_irrefl _ known
      simpa [reflects.claimed id] using unclaimed
    · rfl
  members := reflects.members
  ordered := reflects.ordered

theorem get_addRegistry (world : World) (id : RegistryId) :
    world.addRegistry.2.registries.get id = world.registries.get id :=
  Arena.map_get_add (fun members => members) world.registries rfl id

theorem addRegistry (reflects : world.Reflects calls) :
    world.addRegistry.2.Reflects calls where
  known call member := by
    obtain ⟨registryKnown, adapterKnown⟩ := reflects.known call member
    refine ⟨Nat.lt_of_lt_of_eq (Nat.lt_succ_of_lt registryKnown) ?_, adapterKnown⟩
    exact (Arena.size_add _ _).symm
  claimed := reflects.claimed
  members registry id := by
    rw [get_addRegistry]
    exact reflects.members registry id
  ordered registry := by
    rw [get_addRegistry]
    exact reflects.ordered registry

/-- A call about an adapter that is in a registry changes nothing. -/
theorem refused (reflects : world.Reflects calls) {call : Registration}
    (registryKnown : call.registry.index < world.registries.size)
    (called : ∃ earlier ∈ calls, earlier.adapter = call.adapter) :
    world.Reflects (calls ++ [call]) where
  known other member := by
    rcases List.mem_append.1 member with earlier | last
    · exact reflects.known other earlier
    · obtain rfl := List.mem_singleton.1 last
      obtain ⟨earlier, isEarlier, same⟩ := called
      exact ⟨registryKnown, same ▸ (reflects.known earlier isEarlier).2⟩
  claimed id := by
    rw [reflects.claimed id]
    constructor
    · rintro ⟨other, member, about⟩
      exact ⟨other, List.mem_append_left _ member, about⟩
    · rintro ⟨other, member, about⟩
      rcases List.mem_append.1 member with earlier | last
      · exact ⟨other, earlier, about⟩
      · obtain rfl := List.mem_singleton.1 last
        exact about ▸ called
  members registry id := by
    rw [reflects.members registry id, registryOf?_concat]
    by_cases about : call.adapter = id
    · subst about
      obtain ⟨first, found⟩ := exists_registryOf?_iff.2 called
      rw [found, Option.some_or]
    · rw [if_neg about, Option.or_none]
  ordered registry := by
    refine (reflects.ordered registry).imp_of_mem fun first second lower => ?_
    rwa [turnOf_concat_of_called call (reflects.called_of_mem first),
      turnOf_concat_of_called call (reflects.called_of_mem second)]

/-- The first call about an adapter puts it behind all others of the registry. -/
theorem accepted (reflects : world.Reflects calls) {registry : RegistryId} {id : AdapterId}
    (registryKnown : registry.index < world.registries.size)
    (adapterKnown : id.index < world.adapters.size)
    (uncalled : ¬∃ call ∈ calls, call.adapter = id) :
    World.Reflects { world with toLanguages := world.toLanguages.enrol registry id }
      (calls ++ [⟨registry, id⟩]) where
  known call member := by
    simp only [Languages.enrol, dif_pos adapterKnown, Arena.size_modify]
    rcases List.mem_append.1 member with earlier | last
    · exact reflects.known call earlier
    · obtain rfl := List.mem_singleton.1 last
      exact ⟨registryKnown, adapterKnown⟩
  claimed other := by
    simp only [Languages.enrol, dif_pos adapterKnown, Arena.get_modify, List.mem_append,
      List.mem_singleton, or_and_right, exists_or,
      exists_eq_left]
    by_cases same : other = id
    · simp [same, adapterKnown]
    · rw [if_neg fun both => same both.1, reflects.claimed other]
      simp [Ne.symm same]
  members otherRegistry other := by
    simp only [Languages.enrol, dif_pos adapterKnown, Arena.get_modify, registryOf?_concat]
    have nowhere : registryOf? calls id = none := by
      by_contra somewhere
      exact uncalled (exists_registryOf?_iff.1 (Option.ne_none_iff_exists'.1 somewhere))
    by_cases same : id = other
    · subst same
      rw [nowhere, Option.none_or, if_pos rfl, Option.some.injEq]
      split
      · rename_i here
        simp [here.1]
      · rename_i elsewhere
        rw [reflects.members, nowhere]
        simp only [reduceCtorEq, false_iff]
        exact fun here => elsewhere ⟨here.symm, registryKnown⟩
    · rw [if_neg same, Option.or_none, ← reflects.members]
      split
      · rename_i here
        simp [here.1, Ne.symm same]
      · rfl
  ordered otherRegistry := by
    have kept : (world.registries.get otherRegistry).Pairwise fun first second =>
        turnOf (calls ++ [⟨registry, id⟩]) first < turnOf (calls ++ [⟨registry, id⟩]) second := by
      refine (reflects.ordered otherRegistry).imp_of_mem fun first second lower => ?_
      rwa [turnOf_concat_of_called _ (reflects.called_of_mem first),
        turnOf_concat_of_called _ (reflects.called_of_mem second)]
    simp only [Languages.enrol, dif_pos adapterKnown, Arena.get_modify]
    split
    · rename_i here
      obtain ⟨rfl, -⟩ := here
      refine List.pairwise_append.2 ⟨kept, List.pairwise_singleton _ _, ?_⟩
      intro first member last isLast
      obtain rfl := List.mem_singleton.1 isLast
      have called := reflects.called_of_mem member
      rw [turnOf_concat_of_called _ called, turnOf_concat_of_uncalled _ uncalled]
      exact turnOf_lt_of_called called
    · exact kept

theorem register (reflects : world.Reflects calls) {call : Registration}
    (registryKnown : call.registry.index < world.registries.size)
    (adapterKnown : call.adapter.index < world.adapters.size) :
    ((DocumentHost.register call.registry call.adapter).eval world).2.Reflects
      (calls ++ [call]) := by
  rw [eval_register]
  split
  · rename_i claimed
    exact reflects.refused registryKnown ((reflects.claimed _).1 claimed)
  · rename_i unclaimed
    exact reflects.accepted registryKnown adapterKnown
      fun called => unclaimed ((reflects.claimed _).2 called)

end Reflects

/-- After any history the adapters and registries are as its calls have left them. -/
theorem Registers.reflects {origin world : World} {calls : List Registration}
    (history : origin.Registers calls world) (unregistered : origin.Unregistered) :
    world.Reflects calls := by
  induction history with
  | nothing => exact unregistered.reflects
  | call before call registryKnown adapterKnown ih => exact ih.register registryKnown adapterKnown
  | adapter before adapter ih => exact ih.addAdapter adapter
  | registry before ih => exact ih.addRegistry
  | elsewhere before same ih => exact ih.elsewhere same

/-! ## Answers -/

/-- An adapter of a registry declares something. -/
def Declares (world : World) (calls : List Registration) (registry : RegistryId)
    (declared : AdapterProfile → List String) (wanted : String) (id : AdapterId) : Prop :=
  registryOf? calls id = some registry ∧ wanted ∈ declared (world.profile id)

/-- The current context has not been released, and this is the adapter it used last. -/
def UsedLast (world : World) (id : AdapterId) : Prop :=
  ∃ context, world.current = some context ∧ (world.contexts.get context).released = false ∧
    (world.contexts.get context).lastAdapter = some id

/-- An adapter has a higher priority than another, or the same and was registered no later. -/
def Precedes (world : World) (calls : List Registration) (id other : AdapterId) : Prop :=
  (world.profile other).priority < (world.profile id).priority ∨
    (world.profile other).priority = (world.profile id).priority ∧
      turnOf calls id ≤ turnOf calls other

/-- The adapter that is to answer: the one used last if it declares what is asked for, and
otherwise the one that precedes all that do. -/
def Answers (world : World) (calls : List Registration) (registry : RegistryId)
    (declared : AdapterProfile → List String) (wanted : String) (id : AdapterId) : Prop :=
  world.Declares calls registry declared wanted id ∧
    (world.UsedLast id ∨
      (∀ last, world.UsedLast last → ¬world.Declares calls registry declared wanted last) ∧
        ∀ other, world.Declares calls registry declared wanted other →
          world.Precedes calls id other)

section Answering

variable {world : World} {calls : List Registration} {registry : RegistryId}
  {declared : AdapterProfile → List String} {wanted : String} {id other : AdapterId}

theorem lastUsed_eq_some_iff : world.lastUsed = some id ↔ world.UsedLast id := by
  rw [lastUsed, UsedLast, Option.bind_eq_some_iff]
  simp only [Option.ite_none_left_eq_some, Bool.not_eq_true]

theorem UsedLast.unique (first : world.UsedLast id) (second : world.UsedLast other) :
    id = other :=
  Option.some.inj ((lastUsed_eq_some_iff.2 first).symm.trans (lastUsed_eq_some_iff.2 second))

theorem Precedes.trans {third : AdapterId} (first : world.Precedes calls id other)
    (second : world.Precedes calls other third) : world.Precedes calls id third := by
  unfold Precedes at *
  omega

/-- There is one adapter at most that is to answer. -/
theorem Answers.unique (first : world.Answers calls registry declared wanted id)
    (second : world.Answers calls registry declared wanted other) : id = other := by
  obtain ⟨declares, usedLast | ⟨notLast, foremost⟩⟩ := first
  · obtain ⟨otherDeclares, otherLast | ⟨noneLast, -⟩⟩ := second
    · exact usedLast.unique otherLast
    · exact absurd declares (noneLast id usedLast)
  · obtain ⟨otherDeclares, otherLast | ⟨-, otherForemost⟩⟩ := second
    · exact absurd otherDeclares (notLast other otherLast)
    · have before := foremost other otherDeclares
      have behind := otherForemost id declares
      refine eq_of_turnOf_eq (exists_registryOf?_iff.1 ⟨registry, declares.1⟩) ?_
      unfold Precedes at before behind
      omega

theorem mem_declaring_iff (reflects : world.Reflects calls) :
    id ∈ world.declaring registry declared wanted ↔
      world.Declares calls registry declared wanted id := by
  rw [Declares, ← reflects.members]
  constructor
  · exact mem_declaring
  · rintro ⟨member, isDeclared⟩
    refine List.mem_flatMap.2 ⟨id, member, List.mem_map.2 ⟨wanted, ?_, rfl⟩⟩
    exact List.mem_filter.2 ⟨isDeclared, decide_eq_true rfl⟩

/-- Candidates stand in the order of registration, and some more than once. -/
theorem pairwise_declaring (reflects : world.Reflects calls) :
    (world.declaring registry declared wanted).Pairwise
      fun first second => turnOf calls first ≤ turnOf calls second := by
  refine List.pairwise_flatMap.2 ⟨fun id _ => ?_, ?_⟩
  · refine List.pairwise_map.2 (List.pairwise_of_forall fun _ _ => Nat.le_refl _)
  · refine (reflects.ordered registry).imp fun lower first isFirst second isSecond => ?_
    obtain ⟨_, -, rfl⟩ := List.mem_map.1 isFirst
    obtain ⟨_, -, rfl⟩ := List.mem_map.1 isSecond
    exact Nat.le_of_lt lower

/-- The first of highest priority precedes all others. -/
theorem precedes_of_foremost {candidates : List AdapterId}
    (ordered : candidates.Pairwise fun first second => turnOf calls first ≤ turnOf calls second)
    (found : world.foremost candidates = some id) :
    ∀ other ∈ candidates, world.Precedes calls id other := by
  cases candidates with
  | nil => cases found
  | cons first rest =>
      rw [foremost, Option.some.injEq] at found
      subst found
      induction rest generalizing first with
      | nil =>
          intro other member
          obtain rfl := List.mem_singleton.1 member
          exact .inr ⟨rfl, Nat.le_refl _⟩
      | cons second rest ih =>
          rw [List.foldl_cons]
          obtain ⟨fromFirst, fromSecond⟩ := List.pairwise_cons.1 ordered
          split
          · rename_i lower
            have kept := ih first (ordered.sublist (by simp))
            have precedes : world.Precedes calls first second := by
              have earlier := fromFirst second List.mem_cons_self
              unfold Precedes
              omega
            intro other member
            rcases List.mem_cons.1 member with rfl | member
            · exact kept _ List.mem_cons_self
            rcases List.mem_cons.1 member with rfl | member
            · exact (kept _ List.mem_cons_self).trans precedes
            · exact kept _ (List.mem_cons_of_mem _ member)
          · rename_i higher
            have kept := ih second fromSecond
            have precedes : world.Precedes calls second first := .inl (Int.not_le.1 higher)
            intro other member
            rcases List.mem_cons.1 member with rfl | member
            · exact (kept _ List.mem_cons_self).trans precedes
            · exact kept other member

theorem preferred_isSome_iff {candidates : List AdapterId} :
    (world.preferred candidates).isSome = true ↔ ∃ id, id ∈ candidates := by
  constructor
  · intro some
    obtain ⟨id, found⟩ := Option.isSome_iff_exists.1 some
    exact ⟨id, mem_of_preferred found⟩
  · rintro ⟨id, member⟩
    have foremostSome : (world.foremost candidates).isSome = true := by
      cases candidates with
      | nil => cases member
      | cons first rest => rfl
    rw [preferred]
    split
    · split
      · rfl
      · exact foremostSome
    · exact foremostSome

/-- The adapter that is preferred among those that declare something is the one that is to
answer. -/
theorem answers_of_preferred (reflects : world.Reflects calls)
    (found : world.preferred (world.declaring registry declared wanted) = some id) :
    world.Answers calls registry declared wanted id := by
  have member := mem_of_preferred found
  refine ⟨(mem_declaring_iff reflects).1 member, ?_⟩
  have foremost (notLast : ∀ last, world.UsedLast last →
        last ∉ world.declaring registry declared wanted)
      (foremost : world.foremost (world.declaring registry declared wanted) = some id) :
      (∀ last, world.UsedLast last → ¬world.Declares calls registry declared wanted last) ∧
        ∀ other, world.Declares calls registry declared wanted other →
          world.Precedes calls id other :=
    ⟨fun last used declares => notLast last used ((mem_declaring_iff reflects).2 declares),
      fun other declares => precedes_of_foremost (pairwise_declaring reflects) foremost other
        ((mem_declaring_iff reflects).2 declares)⟩
  rw [preferred] at found
  split at found
  · rename_i last isLast
    have used := lastUsed_eq_some_iff.1 isLast
    by_cases among : last ∈ world.declaring registry declared wanted
    · -- a single candidate is the last one, whether or not the number of candidates is looked at
      refine .inl ?_
      split at found
      · exact Option.some.inj found ▸ used
      · rename_i single
        have atMostOne : (world.declaring registry declared wanted).length ≤ 1 := by
          simpa [among] using single
        obtain ⟨only, isOnly⟩ := List.length_eq_one_iff.1
          (Nat.le_antisymm atMostOne (List.length_pos_of_mem among))
        rw [isOnly, List.mem_singleton] at among member
        rwa [member, ← among]
    · rw [if_neg (by simp [among])] at found
      refine .inr (foremost (fun other otherUsed => ?_) found)
      exact otherUsed.unique used ▸ among
  · rename_i none
    refine .inr (foremost (fun other otherUsed => ?_) found)
    rw [lastUsed_eq_some_iff.2 otherUsed] at none
    cases none

/-- The preferred one is the adapter that is to answer, and there is one if any adapter declares
what is asked for. -/
theorem preferred_declaring_iff (reflects : world.Reflects calls) :
    ((world.preferred (world.declaring registry declared wanted)).isSome = true ↔
        ∃ id, world.Declares calls registry declared wanted id) ∧
      ∀ id, world.preferred (world.declaring registry declared wanted) = some id ↔
        world.Answers calls registry declared wanted id := by
  have isSome : (world.preferred (world.declaring registry declared wanted)).isSome = true ↔
      ∃ id, world.Declares calls registry declared wanted id := by
    simp only [preferred_isSome_iff, mem_declaring_iff reflects]
  refine ⟨isSome, fun id => ⟨answers_of_preferred reflects, fun answers => ?_⟩⟩
  obtain ⟨other, found⟩ := Option.isSome_iff_exists.1 (isSome.2 ⟨id, answers.1⟩)
  rw [found, (answers_of_preferred reflects found).unique answers]

end Answering

end World

/-- Adapters answer as they have been registered.  Each is in the registry of the first call about
it, and once; a further call fails and leaves all as it is; a tag or an extension that some adapter
of the registry declares is answered, and by no other than the adapter that is to answer. -/
theorem adapters_answer_as_registered {origin world : World} {calls : List Registration}
    (unregistered : origin.Unregistered) (history : origin.Registers calls world) :
    (∀ registry id, id ∈ world.registries.get registry ↔ registryOf? calls id = some registry) ∧
    (∀ registry, (world.registries.get registry).Nodup) ∧
    (∀ registry id, ((register registry id).eval world).1 = .ok () ↔
      ¬∃ call ∈ calls, call.adapter = id) ∧
    (∀ registry id, (∃ call ∈ calls, call.adapter = id) →
      (register registry id).eval world =
        (.error (.alreadyRegistered (world.profile id).name), world)) ∧
    (∀ registry tag,
      ((world.adapterForTag registry tag).isSome = true ↔
        ∃ id, world.Declares calls registry AdapterProfile.tags tag id) ∧
      ∀ id, world.adapterForTag registry tag = some id ↔
        world.Answers calls registry AdapterProfile.tags tag id) ∧
    (∀ registry name otherwise,
      ((world.adapterForExtension registry name otherwise).isSome = true ↔
        ∃ extension id, SoughtExtension name otherwise extension ∧
          world.Declares calls registry AdapterProfile.extensions extension id) ∧
      ∀ id, world.adapterForExtension registry name otherwise = some id ↔
        ∃ extension, SoughtExtension name otherwise extension ∧
          world.Answers calls registry AdapterProfile.extensions extension id) := by
  have reflects := history.reflects unregistered
  refine ⟨reflects.members, fun registry => ?_, fun registry id => ?_,
    fun registry id called => ?_, fun registry tag => ?_,
    fun registry name otherwise => ⟨?_, fun id => ?_⟩⟩
  · refine List.nodup_iff_pairwise_ne.2 ((reflects.ordered registry).imp ?_)
    rintro first _ lower rfl
    exact Nat.lt_irrefl _ lower
  · rw [← reflects.claimed id, World.eval_register]
    cases (world.adapters.get id).claimed <;> simp
  · rw [World.eval_register, if_pos ((reflects.claimed id).2 called)]
  · rw [World.adapterForTag_eq]
    exact World.preferred_declaring_iff reflects
  · rw [World.adapterForExtension_eq, Option.isSome_iff_exists]
    simp only [Option.bind_eq_some_iff, soughtExtension_iff]
    constructor
    · rintro ⟨id, extension, sought, found⟩
      exact ⟨extension, id, sought, (World.answers_of_preferred reflects found).1⟩
    · rintro ⟨extension, id, sought, declares⟩
      obtain ⟨answer, found⟩ := Option.isSome_iff_exists.1
        ((World.preferred_declaring_iff reflects).1.2 ⟨id, declares⟩)
      exact ⟨answer, extension, sought, found⟩
  · rw [World.adapterForExtension_eq, Option.bind_eq_some_iff]
    simp only [soughtExtension_iff, (World.preferred_declaring_iff reflects).2]

section SharedTag

/-- A host with two registries and three adapters that share a tag, one of them declaring it
twice. -/
def unclaimedHost : World where
  toLanguages := .of
    [⟨Mini.adapter { AdapterProfile.ofTag "Low" "x" with priority := 1 }, false⟩,
      ⟨Mini.adapter { AdapterProfile.ofTag "High" "x" with
        tags := ["x", "x"], extensions := ["mini"], priority := 5 }, false⟩,
      ⟨Mini.adapter { AdapterProfile.ofTag "Late" "x" with priority := 5 }, false⟩]
    [[], []]
  contexts := ⟨[{ output := ⟨0⟩, errorOutput := ⟨1⟩, lastAdapter := some ⟨0⟩ }]⟩

/-- All adapters are put into the first registry, and then one of them into the second. -/
def claimingCalls : List Registration :=
  [⟨⟨0⟩, ⟨0⟩⟩, ⟨⟨0⟩, ⟨1⟩⟩, ⟨⟨0⟩, ⟨2⟩⟩, ⟨⟨1⟩, ⟨0⟩⟩]

def claimedHost : World :=
  claimingCalls.foldl
    (fun world call => ((register call.registry call.adapter).eval world).2) unclaimedHost

theorem unclaimedHost_unregistered : unclaimedHost.Unregistered where
  unclaimed
    | ⟨0⟩ | ⟨1⟩ | ⟨2⟩ | ⟨_ + 3⟩ => rfl
  empty
    | ⟨0⟩ | ⟨1⟩ | ⟨_ + 2⟩ => rfl

theorem unclaimedHost_registers : unclaimedHost.Registers claimingCalls claimedHost :=
  .call (.call (.call (.call .nothing ⟨⟨0⟩, ⟨0⟩⟩ (by decide) (by decide)) ⟨⟨0⟩, ⟨1⟩⟩ (by decide)
    (by decide)) ⟨⟨0⟩, ⟨2⟩⟩ (by decide) (by decide)) ⟨⟨1⟩, ⟨0⟩⟩ (by decide) (by decide)

/-- The context that used the adapter of lowest priority is current. -/
def claimedHostWithin : World :=
  { claimedHost with current := some ⟨0⟩ }

theorem unclaimedHost_registers_within : unclaimedHost.Registers claimingCalls claimedHostWithin :=
  .elsewhere unclaimedHost_registers ⟨rfl, rfl⟩

/-- The earlier one of highest priority answers, and in a context the one it used last. -/
theorem adapters_answer_as_registered_shared_tag :
    unclaimedHost.Unregistered ∧ unclaimedHost.Registers claimingCalls claimedHost ∧
      claimedHost.Answers claimingCalls ⟨0⟩ AdapterProfile.tags "x" ⟨1⟩ ∧
      claimedHostWithin.Answers claimingCalls ⟨0⟩ AdapterProfile.tags "x" ⟨0⟩ ∧
      ∃ extension, SoughtExtension "dir/page.mini" none extension ∧
        claimedHost.Answers claimingCalls ⟨0⟩ AdapterProfile.extensions extension ⟨1⟩ := by
  obtain ⟨-, -, -, -, tags, extensions⟩ :=
    adapters_answer_as_registered unclaimedHost_unregistered unclaimedHost_registers
  obtain ⟨-, -, -, -, tagsWithin, -⟩ :=
    adapters_answer_as_registered unclaimedHost_unregistered unclaimedHost_registers_within
  have isMini : nameExtension? "dir/page.mini" = some "mini" :=
    nameExtension?_eq_some_iff.2 ⟨by decide, "page.mini", ⟨by decide, .inr ⟨"dir", rfl⟩⟩,
      "page", by decide, rfl, by decide⟩
  have found : claimedHost.adapterForExtension ⟨0⟩ "dir/page.mini" none = some ⟨1⟩ := by
    rw [World.adapterForExtension, isMini]
    decide +kernel
  exact ⟨unclaimedHost_unregistered, unclaimedHost_registers,
    ((tags ⟨0⟩ "x").2 ⟨1⟩).1 (by decide +kernel),
    ((tagsWithin ⟨0⟩ "x").2 ⟨0⟩).1 (by decide +kernel),
    ((extensions ⟨0⟩ "dir/page.mini" none).2 ⟨1⟩).1 found⟩

end SharedTag

end DocumentHost
