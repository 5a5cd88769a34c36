import DocumentHost.Proofs.Descriptor.Judging
import DocumentHost.Proofs.Descriptor.Links
import DocumentHost.Proofs.Host.Keeping
import DocumentHost.Proofs.Host.Releasing

/-!
# Descriptors in later states

Marks, drops and links last through everything that is done with descriptors.  A validity
check does less: it takes time, marks descriptors, and records looks at files.
-/

namespace DocumentHost

namespace World

/-- Invalidity has spread along all links. -/
def Spread (world : World) : Prop :=
  Descriptors.Linked [] world.descriptors

theorem Spread.pending {world : World} (spread : world.Spread) (pending : List DescriptorId) :
    Descriptors.Linked pending world.descriptors :=
  ⟨spread.known, fun other marked link member =>
    (spread.spread other marked link member).imp_right nofun⟩

/-- In a later state marks, drops and links are still there, and invalidity has spread
again. -/
def Later (world after : World) : Prop :=
  world.Spread → after.Spread ∧ Descriptors.Progress world.descriptors after.descriptors

namespace Later

variable {world : World}

theorem lasting : Lasting Later where
  refl _ spread := ⟨spread, .refl _⟩
  trans first second spread := by
    obtain ⟨spreadBetween, firstProgress⟩ := first spread
    obtain ⟨spreadAfter, secondProgress⟩ := second spreadBetween
    exact ⟨spreadAfter, firstProgress.trans secondProgress⟩

theorem of_descriptors {after : World} (same : after.descriptors = world.descriptors) :
    Later world after := by
  intro spread
  rw [Spread, same]
  exact ⟨spread, .refl _⟩

/-- A change of one descriptor that leaves its mark and its links alone. -/
theorem modifyDescriptor (world : World) (id : DescriptorId) {change : Descriptor → Descriptor}
    (marked : ∀ descriptor, (change descriptor).invalidated = descriptor.invalidated)
    (links : ∀ descriptor, (change descriptor).dependents = descriptor.dependents)
    (dropped : ∀ descriptor, descriptor.dropped = true → (change descriptor).dropped = true) :
    Later world (world.modifyDescriptor id change) := by
  have marks (other : DescriptorId) :
      ((world.descriptors.modify id change).get other).invalidated =
        (world.descriptors.get other).invalidated :=
    Arena.map_get_modify Descriptor.invalidated world.descriptors id (marked _) other
  have dependents (other : DescriptorId) :
      ((world.descriptors.modify id change).get other).dependents =
        (world.descriptors.get other).dependents :=
    Arena.map_get_modify Descriptor.dependents world.descriptors id (links _) other
  have progress : Descriptors.Progress world.descriptors (world.descriptors.modify id change) :=
    { size := Nat.le_of_eq (Arena.size_modify ..).symm
      marked := fun other wasMarked => by rwa [marks]
      dropped := Arena.related_modify (fun before after => before.dropped = true →
        after.dropped = true) (fun _ wasDropped => wasDropped) world.descriptors id (dropped _)
      links := fun other link member => .inl (by rwa [dependents]) }
  refine fun spread => ⟨⟨?_, ?_⟩, progress⟩
  · intro other link member
    rw [World.modifyDescriptor, dependents] at member
    rw [World.modifyDescriptor, Arena.size_modify]
    exact spread.known other link member
  · intro other wasMarked link member
    rw [World.modifyDescriptor, marks] at wasMarked
    rw [World.modifyDescriptor, dependents] at member
    exact (spread.spread other wasMarked link member).imp progress.settled nofun

theorem addDescriptor (world : World) {descriptor : Descriptor}
    (unlinked : descriptor.dependents = []) :
    Later world (world.addDescriptor descriptor).2 := by
  have dependents (id : DescriptorId) :
      ((world.descriptors.add descriptor).2.get id).dependents =
        (world.descriptors.get id).dependents :=
    Arena.map_get_add Descriptor.dependents world.descriptors unlinked id
  have progress :
      Descriptors.Progress world.descriptors (world.descriptors.add descriptor).2 :=
    { size := by simp
      marked := fun id wasMarked => by rwa [Arena.get_add_of_marked wasMarked rfl]
      dropped := fun id wasDropped => by rwa [Arena.get_add_of_marked wasDropped rfl]
      links := fun id link member => .inl (by rwa [dependents]) }
  refine fun spread => ⟨⟨?_, ?_⟩, progress⟩
  · intro id link member
    change link ∈ ((world.descriptors.add descriptor).2.get id).dependents at member
    rw [dependents] at member
    exact Nat.lt_of_lt_of_le (spread.known id link member) progress.size
  · intro id isMarked link member
    change link ∈ ((world.descriptors.add descriptor).2.get id).dependents at member
    change ((world.descriptors.add descriptor).2.get id).invalidated = true at isMarked
    rw [dependents] at member
    -- only what was there before has links
    have known : id.index < world.descriptors.size := Arena.known_of_ne_default fun absent => by
      rw [absent] at member
      cases member
    rw [Arena.get_add_of_lt _ _ known] at isMarked
    exact (spread.spread id isMarked link member).imp progress.settled nofun

theorem invalidate (world : World) (id : DescriptorId) : Later world (world.invalidate id) := by
  by_cases known : id.index < world.descriptors.size
  · intro spread
    have spreads := Descriptors.invalidateAll_spreads [id] world.descriptors (spread.pending _)
      (by simpa using known)
    exact ⟨spreads.linked, spreads.progress⟩
  · exact of_descriptors (Descriptors.invalidateAll_of_unknown known)

/-- A new link is there in the later state, or its end is settled. -/
theorem linkDependent (spread : world.Spread) {id dependent : DescriptorId}
    (known : id.index < world.descriptors.size)
    (dependentKnown : dependent.index < world.descriptors.size) :
    (world.linkDependent id dependent).Spread ∧
      Descriptors.Progress world.descriptors (world.linkDependent id dependent).descriptors ∧
      (dependent ∈ ((world.linkDependent id dependent).descriptors.get id).dependents ∨
        Descriptors.Settled (world.linkDependent id dependent).descriptors dependent) := by
  let linked : World :=
    { world with descriptors := Descriptors.addDependent world.descriptors id dependent }
  have progress : Descriptors.Progress world.descriptors linked.descriptors :=
    Descriptors.progress_addDependent known
  by_cases invalid : (linked.descriptors.get id).invalidated = true
  · have spreads := Descriptors.invalidateAll_spreads [dependent] linked.descriptors
      (spread.addDependent known dependentKnown)
      (by simpa [linked, Descriptors.size_addDependent] using dependentKnown)
    have result : world.linkDependent id dependent = linked.invalidate dependent := if_pos invalid
    rw [result]
    have settled := spreads.settled dependent List.mem_cons_self
    exact ⟨spreads.linked, progress.trans spreads.progress, .inr settled⟩
  · have result : world.linkDependent id dependent = linked := if_neg invalid
    rw [result]
    refine ⟨?_, progress, .inl ?_⟩
    · refine spread.addDependent_of_unmarked known dependentKnown ?_
      rwa [Descriptors.invalidated_addDependent] at invalid
    · exact (Descriptors.mem_dependents_addDependent known).2 (.inr ⟨rfl, rfl⟩)

end Later

theorem descriptors_releaseUnheld (world : World) :
    world.releaseUnheld.descriptors = world.descriptors := by
  rw [(ReleasesOnly.releaseUnheld world).rest]

/-! ## Validity checks -/

/-- What a validity check may do: time passes, descriptors are marked, and looks at files
are recorded. -/
structure Checked (world after : World) : Prop where
  rest : ∃ descriptors clock, after = { world with descriptors, clock }
  clock : world.clock.nanoseconds ≤ after.clock.nanoseconds
  size : after.descriptors.size = world.descriptors.size
  same : ∀ id, ∃ invalidated dependents backing, after.descriptors.get id =
    { world.descriptors.get id with invalidated, dependents, backing }
  rechecked : ∀ id, Backing.Rechecked after.clock (world.descriptors.get id).backing
    (after.descriptors.get id).backing
  later : Later world after

namespace Checked

theorem lasting : Lasting Checked where
  refl world := ⟨⟨_, _, rfl⟩, Int.le_refl _, rfl, fun _ => ⟨_, _, _, rfl⟩, fun _ => .inl rfl,
    Later.lasting.refl world⟩
  trans {world between after} first second := by
    refine ⟨?_, Int.le_trans first.clock second.clock, second.size.trans first.size, ?_,
      fun id => (first.rechecked id).trans second.clock (second.rechecked id),
      Later.lasting.trans first.later second.later⟩
    · obtain ⟨_, _, firstRest⟩ := first.rest
      obtain ⟨descriptors, clock, secondRest⟩ := second.rest
      exact ⟨descriptors, clock, by rw [secondRest, firstRest]⟩
    · intro id
      obtain ⟨_, _, _, firstSame⟩ := first.same id
      obtain ⟨invalidated, dependents, backing, secondSame⟩ := second.same id
      exact ⟨invalidated, dependents, backing, by rw [secondSame, firstSame]⟩

theorem invalidate (world : World) (id : DescriptorId) : Checked world (world.invalidate id) where
  rest := ⟨_, _, rfl⟩
  clock := Int.le_refl _
  size := Descriptors.size_invalidateAll ..
  same other := by
    obtain ⟨invalidated, dependents, same⟩ :=
      Descriptors.get_invalidateAll [id] world.descriptors other
    exact ⟨invalidated, dependents, _, same⟩
  rechecked other := by
    obtain ⟨_, _, same⟩ := Descriptors.get_invalidateAll [id] world.descriptors other
    left
    rw [World.invalidate, same]
  later := .invalidate world id

theorem looked {world after : World} {id : DescriptorId} (looks : Looked id world after) :
    Checked world after := by
  obtain ⟨descriptors, clock, rest⟩ := looks.rest
  have same (other : DescriptorId) : ∃ backing,
      after.descriptors.get other = { world.descriptors.get other with backing } := by
    by_cases here : other = id
    · rw [here]
      exact looks.same
    · exact ⟨_, looks.others other here⟩
  refine ⟨⟨_, _, rest⟩, looks.clock, looks.size, fun other => ?_, fun other => ?_, ?_⟩
  · obtain ⟨backing, sameOther⟩ := same other
    exact ⟨_, _, backing, sameOther⟩
  · by_cases here : other = id
    · rw [here]
      exact looks.rechecked
    · exact .inl (congrArg Descriptor.backing (looks.others other here))
  · have progress : Descriptors.Progress world.descriptors after.descriptors := by
      refine ⟨Nat.le_of_eq looks.size.symm, ?_, ?_, ?_⟩
      all_goals
        intro other
        obtain ⟨_, sameOther⟩ := same other
        rw [sameOther]
      · exact fun wasMarked => wasMarked
      · exact fun wasDropped => wasDropped
      · exact fun _ member => .inl member
    refine fun spread => ⟨⟨?_, ?_⟩, progress⟩
    · intro other link member
      obtain ⟨_, sameOther⟩ := same other
      rw [sameOther] at member
      rw [looks.size]
      exact spread.known other link member
    · intro other isMarked link member
      obtain ⟨_, sameOther⟩ := same other
      rw [sameOther] at isMarked member
      exact (spread.spread other isMarked link member).imp progress.settled nofun

theorem source {world after : World} (checked : Checked world after) :
    after.source = world.source := by
  obtain ⟨_, _, rest⟩ := checked.rest
  rw [rest]

theorem dropped {world after : World} (checked : Checked world after) (id : DescriptorId) :
    (after.descriptors.get id).dropped = (world.descriptors.get id).dropped := by
  obtain ⟨_, _, _, same⟩ := checked.same id
  rw [same]

end Checked

/-- A descriptor that is invalidated is marked, if it exists and somebody holds it. -/
theorem Spread.marked_invalidate {world : World} (spread : world.Spread) {id : DescriptorId}
    (known : id.index < world.descriptors.size)
    (held : (world.descriptors.get id).dropped = false) :
    ((world.invalidate id).descriptors.get id).invalidated = true := by
  have spreads := Descriptors.invalidateAll_spreads [id] world.descriptors (spread.pending _)
    (by simpa using known)
  refine (spreads.settled id (by simp)).resolve_left fun dropped => ?_
  have same := (Checked.invalidate world id).dropped id
  rw [held] at same
  exact absurd (dropped.symm.trans same) (by decide)

end World

open World

theorem settleVisit_keeps (id : DescriptorId) (sound : Bool) (visited : List DescriptorId) :
    (settleVisit id sound visited).Keeps Checked := by
  intro world
  cases sound with
  | false => exact Checked.invalidate world id
  | true =>
      obtain ⟨current, between, looks, settled, -⟩ := eval_settleVisit id visited world
      rw [HostM.KeepsFrom, settled]
      cases current with
      | true => exact .looked looks
      | false => exact Checked.lasting.trans (.looked looks) (.invalidate between id)

/-- By induction on the descriptors. -/
theorem judgeEach_keeps
    {check : DescriptorId → List DescriptorId → HostM DocumentError (Bool × List DescriptorId)}
    (visit : ∀ id visited, (check id visited).Keeps Checked) (ids visited : List DescriptorId) :
    (judgeEach check ids visited).Keeps Checked := by
  induction ids generalizing visited with
  | nil => exact Checked.lasting.pure _
  | cons id rest ih =>
      unfold judgeEach
      refine Lasting.get fun world => ?_
      split
      · exact Checked.lasting.pure _ world
      · refine Checked.lasting.bind (visit id visited) (fun outcome => ?_) world
        obtain ⟨valid, visitedAfter⟩ := outcome
        cases valid with
        | true => exact ih visitedAfter
        | false => exact Checked.lasting.pure _

/-- By induction on the levels of the search. -/
theorem judgeWithin_keeps (levels : Nat) (id : DescriptorId) (visited : List DescriptorId) :
    (judgeWithin levels id visited).Keeps Checked := by
  induction levels generalizing id visited with
  | zero => exact Lasting.get fun world => Checked.lasting.throw _ world
  | succ levels ih =>
      unfold judgeWithin
      refine Lasting.get fun world => ?_
      dsimp only
      split
      · exact Checked.lasting.pure _ world
      split
      · exact Checked.lasting.pure _ world
      refine Checked.lasting.bind (judgeEach_keeps ih _ _) (fun outcome => ?_) world
      exact settleVisit_keeps id outcome.1 outcome.2

theorem isValid_keeps (id : DescriptorId) : (isValid id).Keeps Checked :=
  Checked.lasting.bind (judgeWithin_keeps _ id []) fun outcome => Checked.lasting.pure outcome.1

theorem isValid_of_marked {id : DescriptorId} {world : World}
    (marked : (world.descriptors.get id).invalidated = true) :
    (isValid id).eval world = (.ok false, world) := by
  rw [eval_isValid, eval_judgeWithin_of_invalidated marked]

/-- A descriptor that is found invalid is marked afterwards. -/
theorem marked_of_isValid {id : DescriptorId} {world after : World} (spread : world.Spread)
    (known : id.index < world.descriptors.size)
    (held : (world.descriptors.get id).dropped = false)
    (checked : (isValid id).eval world = (.ok false, after)) :
    (after.descriptors.get id).invalidated = true := by
  rw [eval_isValid] at checked
  cases unmarked : (world.descriptors.get id).invalidated with
  | true =>
      rw [eval_judgeWithin_of_invalidated unmarked] at checked
      cases checked
      exact unmarked
  | false =>
      rw [eval_judgeWithin_of_new unmarked List.not_mem_nil] at checked
      have kept := judgeEach_keeps (judgeWithin_keeps dependencyLimit)
        (world.descriptors.get id).dependencies [id] world
      -- the descriptor is marked last, whatever was wrong with it
      have marks (between : World) (step : Checked world between) :
          ((between.invalidate id).descriptors.get id).invalidated = true :=
        (step.later spread).1.marked_invalidate (by rwa [step.size]) (by rw [step.dropped, held])
      rw [HostM.KeepsFrom] at kept
      rcases searched : (judgeEach (judgeWithin dependencyLimit)
        (world.descriptors.get id).dependencies [id]).eval world with
        ⟨error | ⟨sound, visited⟩, between⟩
      · rw [searched] at checked
        cases checked
      rw [searched] at checked kept
      cases sound with
      | false =>
          dsimp only at checked
          rw [eval_settleVisit_of_unsound] at checked
          cases checked
          exact marks between kept
      | true =>
          obtain ⟨current, looked, looks, settled, -⟩ := eval_settleVisit id visited between
          dsimp only at checked
          rw [settled] at checked
          cases current with
          | true => cases checked
          | false =>
              cases checked
              exact marks looked (Checked.lasting.trans kept (.looked looks))

end DocumentHost
