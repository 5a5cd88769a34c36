import DocumentHost.Host.Descriptor
import DocumentHost.Proofs.Arena
import DocumentHost.Proofs.Host.Evaluation

/-!
# One visit of the validity check

The check of a descriptor goes through its dependencies in order and then looks at the
file behind it.  The equations here say what a visit comes to in a given state.  A look at
a file reads the clock and the tree, and changes at most the record of when the descriptor
was looked at.
-/

namespace DocumentHost

/-- The file has to be looked at again at an instant. -/
def Backing.Due (backing : Backing) (now : Instant) : Prop :=
  backing.policy.enabled = true ∧
    (backing.policy.interval * 1000000 : Int) ≤
      now.nanoseconds - backing.lastChecked.nanoseconds

/-- What is due at an instant is due later on. -/
theorem Backing.Due.later {backing : Backing} {now later : Instant} (due : backing.Due now)
    (passes : now.nanoseconds ≤ later.nanoseconds) : backing.Due later := by
  obtain ⟨enabled, elapsed⟩ := due
  exact ⟨enabled, by omega⟩

/-- Nothing is recorded anew but when the file was looked at. -/
def Backing.Rechecked (clock : Instant) (before after : Option Backing) : Prop :=
  after = before ∨ ∃ backing now, before = some backing ∧
    after = some { backing with lastChecked := now } ∧ now.nanoseconds ≤ clock.nanoseconds

theorem Backing.Rechecked.trans {clock later : Instant} {before between after : Option Backing}
    (passes : clock.nanoseconds ≤ later.nanoseconds) (first : Rechecked clock before between)
    (second : Rechecked later between after) : Rechecked later before after := by
  rcases second with rfl | ⟨backing, now, rfl, rfl, early⟩
  · rcases first with rfl | ⟨backing, now, rfl, rfl, early⟩
    · exact .inl rfl
    · exact .inr ⟨backing, now, rfl, rfl, Int.le_trans early passes⟩
  · rcases first with rfl | ⟨old, earlier, rfl, same, -⟩
    · exact .inr ⟨backing, now, rfl, rfl, early⟩
    · cases same
      exact .inr ⟨old, now, rfl, rfl, early⟩

namespace World

/-- The file is there, and has not been modified since it was read. -/
def FileCurrent (world : World) (backing : Backing) : Prop :=
  ∃ modified, world.files.modified backing.path = .ok modified ∧
    modified.nanoseconds ≤ backing.modified.nanoseconds

/-- A state that differs in its clock, which has not gone back, and in what a change does
to one descriptor. -/
structure Looked (id : DescriptorId) (world after : World) : Prop where
  rest : ∃ descriptors clock, after = { world with descriptors, clock }
  clock : world.clock.nanoseconds ≤ after.clock.nanoseconds
  size : after.descriptors.size = world.descriptors.size
  others : ∀ other, other ≠ id → after.descriptors.get other = world.descriptors.get other
  same : ∃ backing, after.descriptors.get id = { world.descriptors.get id with backing }
  rechecked : Backing.Rechecked after.clock (world.descriptors.get id).backing
    (after.descriptors.get id).backing

namespace Looked

variable {id : DescriptorId} {world after : World}

theorem refl (id : DescriptorId) (world : World) : Looked id world world :=
  ⟨⟨_, _, rfl⟩, Int.le_refl _, rfl, fun _ _ => rfl, ⟨_, rfl⟩, .inl rfl⟩

theorem tick (id : DescriptorId) (world : World) : Looked id world world.tick where
  rest := ⟨_, _, rfl⟩
  clock := by
    simp only [World.tick, World.clockStep]
    omega
  size := rfl
  others _ _ := rfl
  same := ⟨_, rfl⟩
  rechecked := .inl rfl

/-- The time of a look is recorded. -/
theorem record {id : DescriptorId} {world : World} {backing : Backing}
    (found : (world.descriptors.get id).backing = some backing) :
    Looked id world (world.tick.modifyDescriptor id fun descriptor =>
      { descriptor with backing := some { backing with lastChecked := world.clock } }) where
  rest := ⟨_, _, rfl⟩
  clock := (tick id world).clock
  size := Arena.size_modify ..
  others _ differs := Arena.get_modify_of_ne _ _ differs
  same := by
    by_cases known : id.index < world.descriptors.size
    · exact ⟨_, Arena.get_modify_self _ _ known⟩
    · refine ⟨(world.descriptors.get id).backing, ?_⟩
      exact congrArg (Arena.get · id) (Arena.modify_of_unknown _ _ known)
  rechecked := by
    by_cases known : id.index < world.descriptors.size
    · refine .inr ⟨backing, world.clock, found, ?_, (tick id world).clock⟩
      exact congrArg Descriptor.backing (Arena.get_modify_self _ _ known)
    · exact .inl (congrArg (fun arena => (Arena.get arena id).backing)
        (Arena.modify_of_unknown _ _ known))

end Looked

/-- A look at the file behind a descriptor tells whether the file is current, if it has to be
looked at. -/
theorem eval_fileIsCurrent {id : DescriptorId} {backing : Backing} {world : World}
    (behind : (world.descriptors.get id).backing = some backing) :
    ∃ current after, (fileIsCurrent id backing).eval world = (.ok current, after) ∧
      Looked id world after ∧
      (current = true ↔ (backing.Due world.clock → world.FileCurrent backing)) := by
  unfold fileIsCurrent
  by_cases enabled : backing.policy.enabled = true
  · rw [if_neg (by simp [enabled]), HostM.eval_bind_of_ok (HostM.eval_readClock world)]
    dsimp only
    by_cases early : world.clock.nanoseconds - backing.lastChecked.nanoseconds <
        (backing.policy.interval * 1000000 : Int)
    · refine ⟨true, world.tick, ?_, .tick id world, ?_⟩
      · rw [if_pos early]
        rfl
      · have notDue : ¬backing.Due world.clock := by
          rintro ⟨-, elapsed⟩
          omega
        simp [notDue]
    · have due : backing.Due world.clock := ⟨enabled, by omega⟩
      rw [if_neg early, HostM.eval_bind_of_ok (HostM.eval_modify _ _),
        HostM.eval_bind_of_ok (HostM.eval_get _)]
      generalize looked : FileTree.modified (World.files _) backing.path = outcome
      have found : world.files.modified backing.path = outcome := looked
      cases outcome with
      | error reason =>
          refine ⟨false, _, rfl, .record behind, ?_⟩
          simp [due, FileCurrent, found]
      | ok modified =>
          refine ⟨modified.notAfter backing.modified, _, rfl, .record behind, ?_⟩
          simp [due, FileCurrent, found, Instant.notAfter]
  · rw [if_pos (by simp [enabled])]
    refine ⟨true, world, rfl, .refl id world, ?_⟩
    have notDue : ¬backing.Due world.clock := fun due => enabled due.1
    simp [notDue]

end World

section Visits

variable {check : DescriptorId → List DescriptorId →
    HostM DocumentError (Bool × List DescriptorId)}

theorem eval_judgeEach_nil (visited : List DescriptorId) (world : World) :
    (judgeEach check [] visited).eval world = (.ok (true, visited), world) :=
  rfl

/-- A dependency that nobody holds is not valid. -/
theorem eval_judgeEach_of_dropped {id : DescriptorId} {rest visited : List DescriptorId}
    {world : World} (dropped : (world.descriptors.get id).dropped = true) :
    (judgeEach check (id :: rest) visited).eval world = (.ok (false, visited), world) := by
  rw [judgeEach, HostM.eval_bind_of_ok (HostM.eval_get _), if_pos dropped]
  rfl

theorem eval_judgeEach_of_held {id : DescriptorId} {rest visited : List DescriptorId}
    {world : World} (held : (world.descriptors.get id).dropped = false) :
    (judgeEach check (id :: rest) visited).eval world =
      match (check id visited).eval world with
      | (.ok (true, visited), between) => (judgeEach check rest visited).eval between
      | (.ok (false, visited), between) => (.ok (false, visited), between)
      | (.error error, between) => (.error error, between) := by
  rw [judgeEach, HostM.eval_bind_of_ok (HostM.eval_get _), if_neg (by simp [held]),
    HostM.eval_bind]
  rcases (check id visited).eval world with ⟨error | ⟨_ | _, visited⟩, between⟩ <;> rfl

theorem eval_judgeWithin_zero (id : DescriptorId) (visited : List DescriptorId) (world : World) :
    (judgeWithin 0 id visited).eval world =
      (.error (.dependencyLoop (world.descriptors.get id).name), world) :=
  rfl

theorem eval_judgeWithin_of_invalidated {levels : Nat} {id : DescriptorId}
    {visited : List DescriptorId} {world : World}
    (invalid : (world.descriptors.get id).invalidated = true) :
    (judgeWithin (levels + 1) id visited).eval world = (.ok (false, visited), world) := by
  rw [judgeWithin, HostM.eval_bind_of_ok (HostM.eval_get _)]
  dsimp only
  rw [if_pos invalid]
  rfl

theorem eval_judgeWithin_of_visited {levels : Nat} {id : DescriptorId}
    {visited : List DescriptorId} {world : World}
    (unmarked : (world.descriptors.get id).invalidated = false) (seen : id ∈ visited) :
    (judgeWithin (levels + 1) id visited).eval world = (.ok (true, visited), world) := by
  rw [judgeWithin, HostM.eval_bind_of_ok (HostM.eval_get _)]
  dsimp only
  rw [if_neg (by simp [unmarked]), if_pos (by simpa using seen)]
  rfl

/-- What is done when the dependencies have been checked. -/
def settleVisit (id : DescriptorId) (sound : Bool) (visited : List DescriptorId) :
    HostM DocumentError (Bool × List DescriptorId) := do
  let current ←
    if sound then
      match ((← get).descriptors.get id).backing with
      | some backing => fileIsCurrent id backing
      | none => pure true
    else pure false
  if !current then modify fun world => world.invalidate id
  return (current, visited)

theorem eval_settleVisit_of_unsound (id : DescriptorId) (visited : List DescriptorId)
    (world : World) :
    (settleVisit id false visited).eval world = (.ok (false, visited), world.invalidate id) :=
  rfl

/-- When all dependencies are valid, the file decides, and what is not valid is marked. -/
theorem eval_settleVisit (id : DescriptorId) (visited : List DescriptorId) (world : World) :
    ∃ current between, World.Looked id world between ∧
      (settleVisit id true visited).eval world =
        (.ok (current, visited), if current then between else between.invalidate id) ∧
      (current = true ↔ ∀ backing, (world.descriptors.get id).backing = some backing →
        backing.Due world.clock → world.FileCurrent backing) := by
  cases found : (world.descriptors.get id).backing with
  | none =>
      refine ⟨true, world, .refl id world, ?_, by simp⟩
      rw [settleVisit, if_pos rfl, HostM.eval_bind_of_ok (HostM.eval_get _)]
      simp only [found]
      rfl
  | some backing =>
      obtain ⟨current, between, looked, looks, verdict⟩ :=
        World.eval_fileIsCurrent found
      refine ⟨current, between, looks, ?_, by simpa using verdict⟩
      rw [settleVisit, if_pos rfl, HostM.eval_bind_of_ok (HostM.eval_get _)]
      simp only [found]
      rw [HostM.eval_bind_of_ok looked]
      cases current <;> rfl

/-- A descriptor that is visited for the first time. -/
theorem eval_judgeWithin_of_new {levels : Nat} {id : DescriptorId}
    {visited : List DescriptorId} {world : World}
    (unmarked : (world.descriptors.get id).invalidated = false) (unseen : id ∉ visited) :
    (judgeWithin (levels + 1) id visited).eval world =
      match (judgeEach (judgeWithin levels) (world.descriptors.get id).dependencies
        (id :: visited)).eval world with
      | (.ok (sound, visited), between) => (settleVisit id sound visited).eval between
      | (.error error, between) => (.error error, between) := by
  rw [judgeWithin, HostM.eval_bind_of_ok (HostM.eval_get _)]
  dsimp only
  rw [if_neg (by simp [unmarked]), if_neg (by simpa using unseen), HostM.eval_bind]
  rcases (judgeEach (judgeWithin levels) (world.descriptors.get id).dependencies
    (id :: visited)).eval world with ⟨error | ⟨sound, visited⟩, between⟩ <;> rfl

end Visits

theorem eval_isValid (id : DescriptorId) (world : World) :
    (isValid id).eval world =
      match (judgeWithin (dependencyLimit + 1) id []).eval world with
      | (.ok (valid, _), after) => (.ok valid, after)
      | (.error error, after) => (.error error, after) := by
  rw [isValid, HostM.eval_bind]
  rcases (judgeWithin (dependencyLimit + 1) id []).eval world with ⟨_ | _, after⟩ <;> rfl

end DocumentHost
