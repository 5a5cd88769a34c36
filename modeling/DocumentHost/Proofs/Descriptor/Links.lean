import DocumentHost.Host.Descriptor
import DocumentHost.Proofs.Arena
import Mathlib.Logic.Relation

/-!
# Links between descriptors, and how invalidity spreads

Invalidating a descriptor takes its dependents out of it and goes on with them.  While
that is under way, a marked descriptor has no unmarked dependents but those that are still
pending; when nothing is pending any longer, invalidity has spread along all links, however
they run in circles.  What is marked has been reached along links.
-/

namespace DocumentHost

namespace Descriptors

/-- The descriptor is dropped, or it is marked. -/
def Settled (descriptors : Descriptors) (id : DescriptorId) : Prop :=
  (descriptors.get id).dropped = true ∨ (descriptors.get id).invalidated = true

/-- Links lead to descriptors that exist.  Those of a marked descriptor lead to dropped and
marked ones only, and to pending ones. -/
structure Linked (pending : List DescriptorId) (descriptors : Descriptors) : Prop where
  known : ∀ id, ∀ other ∈ (descriptors.get id).dependents, other.index < descriptors.size
  spread : ∀ id, (descriptors.get id).invalidated = true →
    ∀ other ∈ (descriptors.get id).dependents, descriptors.Settled other ∨ other ∈ pending

/-- Descriptors at an earlier and at a later time: marks and drops last, and a link is lost
only when its end is marked or dropped. -/
structure Progress (before after : Descriptors) : Prop where
  size : before.size ≤ after.size
  marked : ∀ id, (before.get id).invalidated = true → (after.get id).invalidated = true
  dropped : ∀ id, (before.get id).dropped = true → (after.get id).dropped = true
  links : ∀ id, ∀ other ∈ (before.get id).dependents,
    other ∈ (after.get id).dependents ∨ after.Settled other

namespace Progress

variable {before between after : Descriptors}

theorem refl (descriptors : Descriptors) : Progress descriptors descriptors :=
  ⟨Nat.le_refl _, fun _ marked => marked, fun _ dropped => dropped, fun _ _ link => .inl link⟩

/-- What is not marked has not been marked before. -/
theorem unmarked (progress : Progress before after) {id : DescriptorId}
    (unmarked : (after.get id).invalidated = false) : (before.get id).invalidated = false := by
  rw [← Bool.not_eq_true] at unmarked ⊢
  exact fun marked => unmarked (progress.marked id marked)

theorem settled (progress : Progress before after) {id : DescriptorId}
    (settled : before.Settled id) : after.Settled id :=
  settled.imp (progress.dropped id) (progress.marked id)

theorem trans (first : Progress before between) (second : Progress between after) :
    Progress before after where
  size := Nat.le_trans first.size second.size
  marked id marked := second.marked id (first.marked id marked)
  dropped id dropped := second.dropped id (first.dropped id dropped)
  links id other link := by
    rcases first.links id other link with still | settled
    · exact second.links id other still
    · exact .inr (second.settled settled)

end Progress

variable {descriptors : Descriptors} {id : DescriptorId} {pending : List DescriptorId}

theorem canInvalidate_iff :
    descriptors.canInvalidate id = true ↔
      id.index < descriptors.size ∧ (descriptors.get id).invalidated = false ∧
        (descriptors.get id).dropped = false := by
  simp [canInvalidate, and_assoc]

/-- A descriptor that cannot become invalid is settled, if it exists. -/
theorem settled_of_not_canInvalidate (known : id.index < descriptors.size)
    (impossible : ¬descriptors.canInvalidate id = true) : descriptors.Settled id := by
  rw [canInvalidate_iff] at impossible
  cases dropped : (descriptors.get id).dropped with
  | true => exact .inl dropped
  | false =>
      cases marked : (descriptors.get id).invalidated with
      | true => exact .inr marked
      | false => exact absurd ⟨known, marked, dropped⟩ impossible

theorem get_modify_invalidate (possible : descriptors.canInvalidate id = true) :
    (descriptors.modify id Descriptor.invalidate).get id =
      { descriptors.get id with invalidated := true, dependents := [] } :=
  Arena.get_modify_self _ _ (canInvalidate_iff.1 possible).1

/-- One descriptor is marked, and its links are pending. -/
theorem Linked.invalidate (linked : Linked (id :: pending) descriptors)
    (possible : descriptors.canInvalidate id = true) :
    Linked ((descriptors.get id).dependents ++ pending)
      (descriptors.modify id Descriptor.invalidate) where
  known other link member := by
    rw [Arena.size_modify]
    by_cases here : other = id
    · subst here
      simp [get_modify_invalidate possible] at member
    · rw [Arena.get_modify_of_ne _ _ here] at member
      exact linked.known other link member
  spread other marked link member := by
    by_cases here : other = id
    · subst here
      simp [get_modify_invalidate possible] at member
    · rw [Arena.get_modify_of_ne _ _ here] at marked member
      by_cases isId : link = id
      · subst isId
        exact .inl (.inr (by rw [get_modify_invalidate possible]))
      · rw [Settled, Arena.get_modify_of_ne _ _ isId]
        rcases linked.spread other marked link member with settled | isPending
        · exact .inl settled
        · rw [List.mem_cons] at isPending
          exact .inr (List.mem_append.2 (.inr (isPending.resolve_left isId)))

/-- Invalidity spreads to all that is pending and along all links from there. -/
structure Spreads (pending : List DescriptorId) (before after : Descriptors) : Prop where
  linked : Linked [] after
  progress : Progress before after
  settled : ∀ id ∈ pending, after.Settled id

/-- One descriptor is marked, and invalidity spreads from its links on. -/
theorem Spreads.of_invalidate {after : Descriptors} (possible : descriptors.canInvalidate id = true)
    (further : Spreads ((descriptors.get id).dependents ++ pending)
      (descriptors.modify id Descriptor.invalidate) after) :
    Spreads (id :: pending) descriptors after := by
  have marked : ((descriptors.modify id Descriptor.invalidate).get id).invalidated = true := by
    rw [get_modify_invalidate possible]
  refine ⟨further.linked, ⟨?_, ?_, ?_, ?_⟩, ?_⟩
  · simpa using further.progress.size
  · intro other wasMarked
    apply further.progress.marked
    by_cases here : other = id
    · rw [here, marked]
    · rwa [Arena.get_modify_of_ne _ _ here]
  · intro other wasDropped
    apply further.progress.dropped
    exact (Arena.map_get_modify Descriptor.dropped descriptors id rfl other).trans wasDropped
  · intro other link member
    by_cases here : other = id
    · subst here
      exact .inr (further.settled link (List.mem_append.2 (.inl member)))
    · apply further.progress.links
      rwa [Arena.get_modify_of_ne _ _ here]
  · intro other member
    rcases List.mem_cons.1 member with rfl | isPending
    · exact .inr (further.progress.marked other marked)
    · exact further.settled other (List.mem_append.2 (.inr isPending))

/-- By induction on the descriptors that become invalid, one after the other. -/
theorem invalidateAll_spreads (pending : List DescriptorId) (descriptors : Descriptors)
    (linked : Linked pending descriptors)
    (known : ∀ id ∈ pending, id.index < descriptors.size) :
    Spreads pending descriptors (invalidateAll pending descriptors) := by
  induction pending, descriptors using invalidateAll.induct with
  | case1 descriptors =>
      rw [invalidateAll]
      exact ⟨linked, .refl descriptors, by simp⟩
  | case2 id pending descriptors possible ih =>
      rw [invalidateAll, if_pos possible]
      have further := ih (linked.invalidate possible) (by
        intro other member
        rw [Arena.size_modify]
        rcases List.mem_append.1 member with link | isPending
        · exact linked.known id other link
        · exact known other (List.mem_cons_of_mem _ isPending))
      exact .of_invalidate possible further
  | case3 id pending descriptors impossible ih =>
      rw [invalidateAll, if_neg impossible]
      have settled := settled_of_not_canInvalidate (known id (by simp)) impossible
      have further := ih
        { known := linked.known
          spread := by
            intro other marked link member
            rcases linked.spread other marked link member with linkSettled | isPending
            · exact .inl linkSettled
            · rcases List.mem_cons.1 isPending with rfl | inRest
              · exact .inl settled
              · exact .inr inRest }
        (fun other member => known other (List.mem_cons_of_mem _ member))
      refine ⟨further.linked, further.progress, ?_⟩
      intro other member
      rcases List.mem_cons.1 member with rfl | inRest
      · exact further.progress.settled settled
      · exact further.settled other inRest

/-- Invalidating changes marks and links only. -/
theorem get_invalidateAll (pending : List DescriptorId) (descriptors : Descriptors)
    (other : DescriptorId) :
    ∃ invalidated dependents, (invalidateAll pending descriptors).get other =
      { descriptors.get other with invalidated, dependents } := by
  induction pending, descriptors using invalidateAll.induct with
  | case1 descriptors =>
      rw [invalidateAll]
      exact ⟨_, _, rfl⟩
  | case2 id pending descriptors possible ih =>
      rw [invalidateAll, if_pos possible]
      obtain ⟨invalidated, dependents, same⟩ := ih
      refine ⟨invalidated, dependents, ?_⟩
      by_cases here : other = id
      · subst here
        rw [same, get_modify_invalidate possible]
      · rw [same, Arena.get_modify_of_ne _ _ here]
  | case3 id pending descriptors impossible ih =>
      rw [invalidateAll, if_neg impossible]
      exact ih

theorem size_invalidateAll (pending : List DescriptorId) (descriptors : Descriptors) :
    (invalidateAll pending descriptors).size = descriptors.size := by
  induction pending, descriptors using invalidateAll.induct with
  | case1 descriptors => rw [invalidateAll]
  | case2 id pending descriptors possible ih =>
      rw [invalidateAll, if_pos possible, ih, Arena.size_modify]
  | case3 id pending descriptors impossible ih => rw [invalidateAll, if_neg impossible, ih]

/-- One step of invalidity: along a link to a descriptor that can become invalid. -/
def LinksTo (descriptors : Descriptors) (id other : DescriptorId) : Prop :=
  other ∈ (descriptors.get id).dependents ∧ descriptors.canInvalidate other = true

/-- What becomes invalid has been reached from something pending.  By induction on the
descriptors that become invalid. -/
theorem reached_of_invalidateAll (pending : List DescriptorId) (descriptors : Descriptors)
    {other : DescriptorId} (unmarked : (descriptors.get other).invalidated = false)
    (marked : ((invalidateAll pending descriptors).get other).invalidated = true) :
    ∃ root ∈ pending, descriptors.canInvalidate root = true ∧
      Relation.ReflTransGen descriptors.LinksTo root other := by
  induction pending, descriptors using invalidateAll.induct with
  | case1 descriptors =>
      rw [invalidateAll, unmarked] at marked
      cases marked
  | case2 id pending descriptors possible ih =>
      rw [invalidateAll, if_pos possible] at marked
      by_cases here : other = id
      · subst here
        exact ⟨other, by simp, possible, .refl⟩
      have still : ((descriptors.modify id Descriptor.invalidate).get other).invalidated = false := by
        rwa [Arena.get_modify_of_ne _ _ here]
      -- a link after the first step was a link before it, since that step takes links out
      have linkBefore (first second : DescriptorId)
          (link : LinksTo (descriptors.modify id Descriptor.invalidate) first second) :
          LinksTo descriptors first second := by
        obtain ⟨member, can⟩ := link
        have firstOther : first ≠ id := by
          rintro rfl
          simp [get_modify_invalidate possible] at member
        have secondOther : second ≠ id := by
          rintro rfl
          simp [canInvalidate_iff, get_modify_invalidate possible] at can
        rw [Arena.get_modify_of_ne _ _ firstOther] at member
        rw [canInvalidate_iff, Arena.size_modify, Arena.get_modify_of_ne _ _ secondOther] at can
        exact ⟨member, canInvalidate_iff.2 can⟩
      obtain ⟨root, member, can, path⟩ := ih still marked
      have rootOther : root ≠ id := by
        rintro rfl
        simp [canInvalidate_iff, get_modify_invalidate possible] at can
      rw [canInvalidate_iff, Arena.size_modify, Arena.get_modify_of_ne _ _ rootOther,
        ← canInvalidate_iff] at can
      have pathBefore : Relation.ReflTransGen descriptors.LinksTo root other :=
        Relation.ReflTransGen.mono linkBefore _ _ path
      rcases List.mem_append.1 member with link | isPending
      · exact ⟨id, by simp, possible, .head ⟨link, can⟩ pathBefore⟩
      · exact ⟨root, List.mem_cons_of_mem _ isPending, can, pathBefore⟩
  | case3 id pending descriptors impossible ih =>
      rw [invalidateAll, if_neg impossible] at marked
      obtain ⟨root, member, can, path⟩ := ih unmarked marked
      exact ⟨root, List.mem_cons_of_mem _ member, can, path⟩

/-- Nothing becomes invalid on account of an identity of no descriptor. -/
theorem invalidateAll_of_unknown (unknown : ¬id.index < descriptors.size) :
    invalidateAll [id] descriptors = descriptors := by
  have impossible : ¬descriptors.canInvalidate id = true := by
    rw [canInvalidate_iff]
    exact fun possible => unknown possible.1
  rw [invalidateAll, if_neg impossible, invalidateAll]

/-! ## One more link -/

/-- A descriptor gets one more dependent. -/
def addDependent (descriptors : Descriptors) (id dependent : DescriptorId) : Descriptors :=
  descriptors.modify id fun descriptor =>
    { descriptor with dependents := descriptor.dependents ++ [dependent] }

section AddDependent

variable {dependent other link : DescriptorId}

theorem size_addDependent : (descriptors.addDependent id dependent).size = descriptors.size :=
  Arena.size_modify ..

theorem invalidated_addDependent :
    ((descriptors.addDependent id dependent).get other).invalidated =
      (descriptors.get other).invalidated :=
  Arena.map_get_modify Descriptor.invalidated descriptors id rfl other

theorem dropped_addDependent :
    ((descriptors.addDependent id dependent).get other).dropped =
      (descriptors.get other).dropped :=
  Arena.map_get_modify Descriptor.dropped descriptors id rfl other

theorem settled_addDependent_iff :
    (descriptors.addDependent id dependent).Settled other ↔ descriptors.Settled other := by
  rw [Settled, Settled, dropped_addDependent, invalidated_addDependent]

theorem mem_dependents_addDependent (known : id.index < descriptors.size) :
    link ∈ ((descriptors.addDependent id dependent).get other).dependents ↔
      link ∈ (descriptors.get other).dependents ∨ other = id ∧ link = dependent := by
  by_cases here : other = id
  · rw [here, addDependent, Arena.get_modify_self _ _ known]
    simp
  · rw [addDependent, Arena.get_modify_of_ne _ _ here]
    simp [here]

theorem progress_addDependent (known : id.index < descriptors.size) :
    Progress descriptors (descriptors.addDependent id dependent) where
  size := Nat.le_of_eq size_addDependent.symm
  marked _ marked := invalidated_addDependent.trans marked
  dropped _ dropped := dropped_addDependent.trans dropped
  links _ _ member := .inl ((mem_dependents_addDependent known).2 (.inl member))

/-- Until the dependent has been dealt with, it is the only link that may be left over. -/
theorem Linked.addDependent (linked : Linked [] descriptors) (known : id.index < descriptors.size)
    (dependentKnown : dependent.index < descriptors.size) :
    Linked [dependent] (descriptors.addDependent id dependent) where
  known other link member := by
    rw [size_addDependent]
    rcases (mem_dependents_addDependent known).1 member with before | ⟨-, rfl⟩
    · exact linked.known other link before
    · exact dependentKnown
  spread other marked link member := by
    rw [invalidated_addDependent] at marked
    rw [settled_addDependent_iff]
    rcases (mem_dependents_addDependent known).1 member with before | ⟨-, rfl⟩
    · exact .inl ((linked.spread other marked link before).resolve_right List.not_mem_nil)
    · exact .inr (by simp)

/-- Nothing is left over if the link is one of a descriptor that is not marked. -/
theorem Linked.addDependent_of_unmarked (linked : Linked [] descriptors)
    (known : id.index < descriptors.size) (dependentKnown : dependent.index < descriptors.size)
    (unmarked : ¬(descriptors.get id).invalidated = true) :
    Linked [] (descriptors.addDependent id dependent) where
  known := (linked.addDependent known dependentKnown).known
  spread other marked link member := by
    rw [invalidated_addDependent] at marked
    rw [settled_addDependent_iff]
    rcases (mem_dependents_addDependent known).1 member with before | ⟨rfl, -⟩
    · exact linked.spread other marked link before
    · exact absurd marked unmarked

end AddDependent

end Descriptors

end DocumentHost
