import DocumentHost.Proofs.Host.Observing

/-!
# A context is bound once

A context that can be entered under a key of an executable is frozen and bound to that
executable.  It is never bound again, neither after its release: over a whole run it can be
entered under one key at most.  Making a context enterable looks at key and context before
the run and behind it, and binds at the very end; what a controller has bound in the meantime
is not bound a second time.
-/

namespace DocumentHost

namespace World

variable {allowed : Bond → Prop} {world after : World} {executable owner : ExecutableId}
  {key otherKey : String} {context : ContextId}

/-! ## Bindings behind a change -/

theorem SameBindings.bound?_eq (same : SameBindings world after) (executable : ExecutableId)
    (key : String) : after.bound? executable key = world.bound? executable key := by
  rw [bound?, bound?, same.enterable]

/-- Behind a binding a context is found under its key, or where it was found before. -/
theorem bound?_bind {bond : Bond} (found : (world.bind bond).bound? executable key = some context) :
    (executable = bond.executable ∧ key = bond.key ∧ context = bond.context) ∨
      world.bound? executable key = some context := by
  rw [bound?, World.bind, World.modifyExecutable, Arena.get_modify] at found
  split at found
  · rename_i here
    obtain ⟨rfl, -⟩ := here
    by_cases sameKey : key = bond.key
    · subst sameKey
      rw [NameTable.get?_insert_self] at found
      cases found
      exact .inl ⟨rfl, rfl, rfl⟩
    · rw [NameTable.get?_insert_of_ne _ _ sameKey] at found
      exact .inr found
  · exact .inr found

theorem context_bind (bond : Bond) (context : ContextId) :
    (world.bind bond).contexts.get context =
      if context = bond.context ∧ bond.context.index < world.contexts.size then
        { world.contexts.get bond.context with enterableFor := some bond.executable, frozen := true }
      else world.contexts.get context :=
  Arena.get_modify ..

/-- Behind a removal no context is found under the key, and what is found was found before. -/
theorem bound?_unbind (found : (world.unbind owner key).bound? executable otherKey = some context) :
    world.bound? executable otherKey = some context ∧ ¬(executable = owner ∧ otherKey = key) := by
  by_cases known : owner.index < world.executables.size
  · rw [bound?, World.unbind, World.modifyExecutable, Arena.get_modify] at found
    split at found
    · rename_i here
      obtain ⟨rfl, -⟩ := here
      by_cases sameKey : otherKey = key
      · rw [sameKey, NameTable.get?_erase_self] at found
        cases found
      · rw [NameTable.get?_erase_of_ne _ sameKey] at found
        exact ⟨found, fun both => sameKey both.2⟩
    · rename_i elsewhere
      exact ⟨found, fun both => elsewhere ⟨both.1, known⟩⟩
  · rw [World.unbind, World.modifyExecutable, Arena.modify_of_unknown _ _ known] at found
    refine ⟨found, fun both => ?_⟩
    -- an executable that was never made has no keys
    rw [bound?, both.1, Arena.get_of_unknown _ known] at found
    cases found

theorem bound?_unbind_self (world : World) (owner : ExecutableId) (key : String) :
    (world.unbind owner key).bound? owner key = none := by
  cases found : (world.unbind owner key).bound? owner key with
  | none => rfl
  | some context => exact absurd ⟨rfl, rfl⟩ (bound?_unbind found).2

/-! ## What a chain of changes preserves -/

/-- What every change preserves, a chain of changes preserves. -/
theorem Changes.preserve {Holds : World → Prop}
    (step : ∀ {before behind}, Change allowed before behind → Holds before → Holds behind)
    (changes : Changes allowed world after) (holds : Holds world) : Holds after := by
  induction changes with
  | refl => exact holds
  | tail _ change ih => exact step change ih

/-- A context under a key is bound to the executable and frozen, and is under no other key. -/
structure Bonded (world : World) : Prop where
  own : ∀ {executable key context}, world.bound? executable key = some context →
    (world.contexts.get context).enterableFor = some executable
  frozen : ∀ {executable key context}, world.bound? executable key = some context →
    (world.contexts.get context).frozen = true
  once : ∀ {executable key otherKey context}, world.bound? executable key = some context →
    world.bound? executable otherKey = some context → key = otherKey

theorem Bonded.of_unbound (unbound : ∀ executable key, world.bound? executable key = none) :
    Bonded world where
  own found := by
    rw [unbound] at found
    cases found
  frozen found := by
    rw [unbound] at found
    cases found
  once found := by
    rw [unbound] at found
    cases found

theorem Bonded.sameBindings (bonded : Bonded world) (same : SameBindings world after) :
    Bonded after where
  own found := by
    rw [same.bound?_eq] at found
    rw [same.enterableFor]
    exact bonded.own found
  frozen found := by
    rw [same.bound?_eq] at found
    exact same.frozen _ (bonded.frozen found)
  once found again := by
    rw [same.bound?_eq] at found again
    exact bonded.once found again

/-- A context that was not bound was under no key, so the new key is its only one. -/
theorem Bonded.bind (bonded : Bonded world) {bond : Bond}
    (known : bond.context.index < world.contexts.size)
    (unbound : (world.contexts.get bond.context).enterableFor = none) :
    Bonded (world.bind bond) := by
  have absent {executable key} : world.bound? executable key ≠ some bond.context := by
    intro found
    rw [bonded.own found] at unbound
    cases unbound
  refine ⟨?_, ?_, ?_⟩
  · intro executable key context found
    rw [context_bind]
    rcases bound?_bind found with ⟨rfl, -, rfl⟩ | before
    · rw [if_pos ⟨rfl, known⟩]
    · rw [if_neg fun both => absent (both.1 ▸ before)]
      exact bonded.own before
  · intro executable key context found
    rw [context_bind]
    rcases bound?_bind found with ⟨rfl, -, rfl⟩ | before
    · rw [if_pos ⟨rfl, known⟩]
    · rw [if_neg fun both => absent (both.1 ▸ before)]
      exact bonded.frozen before
  · intro executable key otherKey context found again
    rcases bound?_bind found with ⟨-, rfl, rfl⟩ | before
    · rcases bound?_bind again with ⟨-, rfl, -⟩ | before
      · rfl
      · exact absurd before absent
    · rcases bound?_bind again with ⟨-, -, rfl⟩ | beforeToo
      · exact absurd before absent
      · exact bonded.once before beforeToo

theorem Bonded.unbind (bonded : Bonded world) (owner : ExecutableId) (key : String) :
    Bonded (world.unbind owner key) where
  own found := bonded.own (bound?_unbind found).1
  frozen found := bonded.frozen (bound?_unbind found).1
  once found again := bonded.once (bound?_unbind found).1 (bound?_unbind again).1

theorem Bonded.change (bonded : Bonded world) (change : Change allowed world after) :
    Bonded after := by
  obtain same | ⟨bond, known, -, unbound, -, rfl⟩ | ⟨owner, key, rfl⟩ := change.bindings
  · exact bonded.sameBindings same
  · exact bonded.bind known unbound
  · exact bonded.unbind owner key

theorem Bonded.changes (bonded : Bonded world) (changes : Changes allowed world after) :
    Bonded after :=
  changes.preserve (fun change held => held.change change) bonded

/-- A context has been bound to an executable under a key, which may be free by now: it is
bound to that executable for good and under no other key. -/
def HasBond (bond : Bond) (world : World) : Prop :=
  (world.contexts.get bond.context).enterableFor = some bond.executable ∧
    ∀ key, world.bound? bond.executable key = some bond.context → key = bond.key

theorem HasBond.of_bound (bonded : Bonded world)
    (found : world.bound? executable key = some context) :
    HasBond ⟨executable, key, context⟩ world :=
  ⟨bonded.own found, fun _ again => bonded.once again found⟩

theorem HasBond.change {bond : Bond} (change : Change allowed world after)
    (has : HasBond bond world) : HasBond bond after := by
  obtain ⟨own, only⟩ := has
  obtain same | ⟨new, known, -, unbound, -, rfl⟩ | ⟨owner, key, rfl⟩ := change.bindings
  · refine ⟨(same.enterableFor _).trans own, fun key found => only key ?_⟩
    rwa [same.bound?_eq] at found
  · -- the context that is bound now was not bound, so it is another one
    have differs : bond.context ≠ new.context := by
      intro sameContext
      rw [← sameContext, own] at unbound
      cases unbound
    refine ⟨?_, fun key found => ?_⟩
    · rw [context_bind, if_neg fun both => differs both.1]
      exact own
    · rcases bound?_bind found with ⟨-, -, sameContext⟩ | before
      · exact absurd sameContext differs
      · exact only key before
  · exact ⟨own, fun other found => only other (bound?_unbind found).1⟩

/-- A context that has been found under a key is found under no other key at any later time. -/
theorem Bonded.bound_once (bonded : Bonded world) (changes : Changes allowed world after)
    (found : world.bound? executable key = some context)
    (again : after.bound? owner otherKey = some context) :
    owner = executable ∧ otherKey = key := by
  obtain ⟨own, only⟩ := changes.preserve HasBond.change (HasBond.of_bound bonded found)
  have ownAgain : (after.contexts.get context).enterableFor = some owner :=
    (bonded.changes changes).own again
  obtain rfl : owner = executable := by
    rw [own] at ownAgain
    cases ownAgain
    rfl
  exact ⟨rfl, only _ again⟩

/-- A key stays free as long as no binding under it is allowed. -/
theorem Changes.free (changes : Changes allowed world after)
    (forbidden : ∀ bond, allowed bond → ¬(bond.executable = executable ∧ bond.key = key))
    (free : world.bound? executable key = none) : after.bound? executable key = none := by
  have step {before behind : World} (change : Change allowed before behind)
      (free : before.bound? executable key = none) : behind.bound? executable key = none := by
    cases found : behind.bound? executable key with
    | none => rfl
    | some context =>
        obtain same | ⟨bond, -, -, -, permitted, rfl⟩ | ⟨owner, other, rfl⟩ := change.bindings
        · rw [same.bound?_eq, free] at found
          cases found
        · rcases bound?_bind found with ⟨sameExecutable, sameKey, -⟩ | earlier
          · exact absurd ⟨sameExecutable.symm, sameKey.symm⟩ (forbidden bond permitted)
          · rw [free] at earlier
            cases earlier
        · rw [(bound?_unbind found).1] at free
          cases free
  exact changes.preserve step free

/-- A context stays unbound as long as no binding of it is allowed. -/
theorem Changes.unbound (changes : Changes allowed world after)
    (forbidden : ∀ bond, allowed bond → bond.context ≠ context)
    (unbound : (world.contexts.get context).enterableFor = none) :
    (after.contexts.get context).enterableFor = none := by
  have step {before behind : World} (change : Change allowed before behind)
      (unbound : (before.contexts.get context).enterableFor = none) :
      (behind.contexts.get context).enterableFor = none := by
    obtain same | ⟨bond, -, -, -, permitted, rfl⟩ | ⟨owner, other, rfl⟩ := change.bindings
    · exact (same.enterableFor context).trans unbound
    · rw [context_bind, if_neg fun both => forbidden bond permitted both.1.symm]
      exact unbound
    · exact unbound
  exact changes.preserve step unbound

/-! ## States inside a run -/

/-- A state that a host comes to: between two operations of a run, or inside the next one. -/
def Passes (allowed : Bond → Prop) (origin world : World) : Prop :=
  ∃ between, ActsOn allowed origin between ∧ Changes allowed between world

theorem Passes.changes (passes : Passes allowed world after) : Changes allowed world after := by
  obtain ⟨between, run, inside⟩ := passes
  exact run.changes.trans inside

theorem ActsOn.passes (run : ActsOn allowed world after) : Passes allowed world after :=
  ⟨after, run, .refl⟩

end World

open World

/-! ## Making a context enterable -/

/-- Two bonds have neither the key nor the context in common. -/
def Bond.Apart (bond other : Bond) : Prop :=
  ¬(other.executable = bond.executable ∧ other.key = bond.key) ∧ other.context ≠ bond.context

section MakeEnterable

variable {world after : World} {executable : ExecutableId} {key : String} {context : ContextId}
  {container : Option Service} {controller : Option Controller}

/-- During an execution a key stays free and a context unbound, if the controller binds neither. -/
theorem execute_free_unbound (known : context.index < world.contexts.size)
    (lawful : LawfulWhere (Bond.Apart ⟨executable, key, context⟩) controller)
    (free : world.bound? executable key = none)
    (unbound : (world.contexts.get context).enterableFor = none) {outcome : Except ExecutionError Unit}
    (executed : (execute executable context container controller).eval world = (outcome, after)) :
    after.bound? executable key = none ∧ (after.contexts.get context).enterableFor = none := by
  have changes : Changes (Bond.Apart ⟨executable, key, context⟩) world
      ((execute executable context container controller).eval world).2 :=
    execute_changes known lawful
  rw [executed] at changes
  exact ⟨changes.free (fun _ apart => apart.1) free, changes.unbound (fun _ apart => apart.2) unbound⟩

/-- Whoever controls the run: what is not bound in the end is left as the run has left it. -/
theorem bindEnterable_unbound_or_bind (free : world.bound? executable key = none)
    (unbound : (world.contexts.get context).enterableFor = none) {outcome : Except ExecutionError Bool}
    (bound : (bindEnterable executable key context container controller).eval world =
      (outcome, after)) :
    (outcome ≠ .ok true ∧
      after = ((execute executable context container controller).eval world).2) ∨
    outcome = .ok true ∧ ∃ between,
      (execute executable context container controller).eval world = (.ok (), between) ∧
        after = between.bind ⟨executable, key, context⟩ := by
  rcases executed : (execute executable context container controller).eval world with
    ⟨error | ⟨⟩, between⟩
  · rw [eval_bindEnterable_of_failed free unbound executed] at bound
    cases bound
    exact .inl ⟨nofun, rfl⟩
  · rw [eval_bindEnterable_of_executed free unbound executed] at bound
    split at bound
    · cases bound
      exact .inl ⟨nofun, rfl⟩
    split at bound
    · cases bound
      exact .inl ⟨nofun, rfl⟩
    split at bound
    · cases bound
      exact .inl ⟨nofun, rfl⟩
    · cases bound
      exact .inr ⟨rfl, between, rfl, rfl⟩

/-- A controller that binds neither leaves three ways for it to end. -/
theorem eval_bindEnterable_of_apart (known : context.index < world.contexts.size)
    (lawful : LawfulWhere (Bond.Apart ⟨executable, key, context⟩) controller)
    (free : world.bound? executable key = none)
    (unbound : (world.contexts.get context).enterableFor = none) :
    (bindEnterable executable key context container controller).eval world =
      match (execute executable context container controller).eval world with
      | (.error error, after) => (.error error, after)
      | (.ok _, after) =>
          if (after.contexts.get context).released then (.error (.ofContext .released), after)
          else (.ok true, after.bind ⟨executable, key, context⟩) := by
  rcases executed : (execute executable context container controller).eval world with
    ⟨error | ⟨⟩, between⟩
  · exact eval_bindEnterable_of_failed free unbound executed
  · obtain ⟨stillFree, stillUnbound⟩ := execute_free_unbound known lawful free unbound executed
    rw [eval_bindEnterable_of_executed free unbound executed, if_neg (by simp [stillFree])]
    dsimp only
    split
    · rfl
    · rw [if_neg (by simp [stillUnbound])]

/-- A release that finds the key takes it away, also when the context cannot be released. -/
theorem releaseBound_free (found : world.bound? executable key = some context)
    {outcome : Except ExecutionError Bool}
    (released : (releaseBound executable key).eval world = (outcome, after)) :
    outcome ≠ .ok false ∧ after.bound? executable key = none := by
  rw [eval_releaseBound_of_bound found] at released
  have aside : Aside (world.unbind executable key)
      ((release context).eval (world.unbind executable key)).2 :=
    Tolerant.of_aside.release context _
  have free := (aside.toSameBindings.bound?_eq executable key).trans
    (bound?_unbind_self world executable key)
  rcases ended : (release context).eval (world.unbind executable key) with ⟨error | ⟨⟩, behind⟩
  all_goals
    rw [ended] at released free
    cases released
    exact ⟨nofun, free⟩

end MakeEnterable

/-- However executables are run, entered and released: a context that is found under a key is
frozen and bound to the executable, so that it is the context of no other one that is entered;
it is found under one key at most, at all times; making a context enterable does nothing when
the key is taken or the context bound, binds the context at the very end when the run has
succeeded, and otherwise leaves what the run has left; and a key under which a context has
been released stays free until a context is made enterable under it. -/
theorem contexts_bound_once {allowed : Bond → Prop} {origin world : World}
    (unused : ∀ executable key, origin.bound? executable key = none)
    (passes : Passes allowed origin world) :
    (∀ executable key context, world.bound? executable key = some context →
      (world.contexts.get context).frozen = true ∧
      (world.contexts.get context).enterableFor = some executable ∧
      (∀ entry arguments, (enter executable key entry arguments).eval world =
        (do
          let value ← enterContext executable context entry arguments
          noteUse executable
          return value : HostM ExecutionError Json).eval world) ∧
      ∀ after, Passes allowed world after → ∀ owner otherKey,
        after.bound? owner otherKey = some context → owner = executable ∧ otherKey = key) ∧
    (∀ executable key context container controller,
      (world.bound? executable key ≠ none →
        (bindEnterable executable key context container controller).eval world =
          (.ok false, world)) ∧
      (world.bound? executable key = none → (world.contexts.get context).enterableFor ≠ none →
        (bindEnterable executable key context container controller).eval world =
          (.error (.ofContext .alreadyEnterable), world)) ∧
      (world.bound? executable key = none → (world.contexts.get context).enterableFor = none →
        (∀ outcome after, (bindEnterable executable key context container controller).eval world =
          (outcome, after) →
            (outcome ≠ .ok true ∧
              after = ((execute executable context container controller).eval world).2) ∨
            outcome = .ok true ∧ ∃ between,
              (execute executable context container controller).eval world = (.ok (), between) ∧
                after = between.bind ⟨executable, key, context⟩) ∧
        (context.index < world.contexts.size →
          LawfulWhere (Bond.Apart ⟨executable, key, context⟩) controller →
            ∀ outcome after, (execute executable context container controller).eval world =
              (outcome, after) →
                after.bound? executable key = none ∧
                (after.contexts.get context).enterableFor = none ∧
                (bindEnterable executable key context container controller).eval world =
                  match outcome with
                  | .error error => (.error error, after)
                  | .ok _ =>
                      if (after.contexts.get context).released then
                        (.error (.ofContext .released), after)
                      else (.ok true, after.bind ⟨executable, key, context⟩)))) ∧
    ∀ executable key context, world.bound? executable key = some context →
      ∀ outcome released, (releaseBound executable key).eval world = (outcome, released) →
        outcome ≠ .ok false ∧
        ∀ after,
          Passes (fun bond => allowed bond ∧ ¬(bond.executable = executable ∧ bond.key = key))
            released after →
          ∀ entry arguments, (enter executable key entry arguments).eval after =
            (.error (.ofContext (.notEnterable key)), after) := by
  have bonded : Bonded world := (Bonded.of_unbound unused).changes passes.changes
  refine ⟨?_, ?_, ?_⟩
  · intro executable key context found
    have own := bonded.own found
    refine ⟨bonded.frozen found, own, fun _ _ => eval_enter_of_bound found own, ?_⟩
    intro after later owner otherKey again
    exact bonded.bound_once later.changes found again
  · intro executable key context container controller
    refine ⟨fun taken => ?_, fun free bound => ?_, fun free unbound => ⟨?_, ?_⟩⟩
    · exact eval_bindEnterable_of_taken (Option.isSome_iff_ne_none.2 taken)
    · exact eval_bindEnterable_of_bound free (Option.isSome_iff_ne_none.2 bound)
    · exact fun outcome after bound => bindEnterable_unbound_or_bind free unbound bound
    · intro known lawful outcome after executed
      obtain ⟨stillFree, stillUnbound⟩ := execute_free_unbound known lawful free unbound executed
      refine ⟨stillFree, stillUnbound, ?_⟩
      rw [eval_bindEnterable_of_apart known lawful free unbound, executed]
      cases outcome with
      | error error => rfl
      | ok value => rfl
  · intro executable key context found outcome released done
    obtain ⟨notFalse, free⟩ := releaseBound_free found done
    refine ⟨notFalse, fun after later entry arguments => ?_⟩
    exact eval_enter_of_unbound (later.changes.free (fun _ permitted => permitted.2) free)

/-- A document that is only text, and a context for it. -/
def greetingHost : World where
  executables := { items := [{
    documentName := "x", partition := "", timestamp := ⟨0⟩, lastUsed := ⟨0⟩
    setting := { registry := ⟨0⟩, sourced := false, options := { parser := textParser } }
    segments := [.literal "t" ⟨1, 1⟩] }] }
  contexts := { items := [{ output := ⟨0⟩, errorOutput := ⟨1⟩ }] }
  sinks := { items := [{}, {}] }

def watching (interference : Observer.Interference) : Controller :=
  Observer.controller "container" (some ⟨⟨0⟩, "k"⟩) interference

/-- The context is made enterable while an observer looks on. -/
def greetingEntered : World :=
  ((bindEnterable ⟨0⟩ "k" ⟨0⟩ none (some (watching .nothing))).eval greetingHost).2

theorem contexts_bound_once_greeting :
    (∀ executable key, greetingHost.bound? executable key = none) ∧
      Passes (fun _ => True) greetingHost greetingEntered ∧
      greetingEntered.bound? ⟨0⟩ "k" = some ⟨0⟩ ∧
      (greetingEntered.contexts.get ⟨0⟩).frozen = true ∧
      (enter ⟨0⟩ "k" "f" []).eval ((releaseBound ⟨0⟩ "k").eval greetingEntered).2 =
        (.error (.ofContext (.notEnterable "k")),
          ((releaseBound ⟨0⟩ "k").eval greetingEntered).2) := by
  have unused : ∀ executable key, greetingHost.bound? executable key = none := by
    rintro ⟨_ | index⟩ key <;> rfl
  have lawful : LawfulWhere (fun _ => True) (some (watching .nothing)) := by
    rintro controller ⟨rfl⟩
    exact Observer.controller_lawful _ _ _
  have run : ActsOn (fun _ => True) greetingHost greetingEntered :=
    .single (.makeEnterable ⟨0⟩ "k" ⟨0⟩ none _ (by decide) lawful fun _ => trivial)
  have found : greetingEntered.bound? ⟨0⟩ "k" = some ⟨0⟩ := by rfl
  obtain ⟨stored, -, freed⟩ := contexts_bound_once unused run.passes
  refine ⟨unused, run.passes, found, (stored ⟨0⟩ "k" ⟨0⟩ found).1, ?_⟩
  exact (freed ⟨0⟩ "k" ⟨0⟩ found _ _ rfl).2 _ ⟨_, .refl, .refl⟩ "f" []

/-- When a controller takes the key during the run, the answer is that the key was taken, and
the document has been run nevertheless. -/
theorem bindEnterable_taken_meanwhile :
    greetingHost.bound? ⟨0⟩ "k" = none ∧ (greetingHost.sinks.get ⟨0⟩).text = "" ∧
      ((bindEnterable ⟨0⟩ "k" ⟨0⟩ none (some (watching .rebind))).eval greetingHost).1 =
        .ok false ∧
      (((bindEnterable ⟨0⟩ "k" ⟨0⟩ none (some (watching .rebind))).eval greetingHost).2.sinks.get
        ⟨0⟩).text = "t" := by
  decide +kernel

end DocumentHost
