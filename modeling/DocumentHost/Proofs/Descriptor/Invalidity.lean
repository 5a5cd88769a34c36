import DocumentHost.Proofs.Descriptor.Sources

/-!
# Invalidity is permanent and spreads

Whatever is done with descriptors and with the source that keeps them, and whatever becomes
of the files behind them: a descriptor that is marked stays marked, and so does one that was
found invalid.  A descriptor that was ever linked to a marked one is marked as well, unless
nobody holds it any longer.
-/

namespace DocumentHost

namespace World

theorem reclaim_later (world : World) : Later world world.reclaim := by
  have drops (ids : List DescriptorId) (start : World) :
      Later start (ids.foldl (fun marked id => marked.modifyDescriptor id fun descriptor =>
        { descriptor with dropped := true }) start) := by
    induction ids generalizing start with
    | nil => exact Later.lasting.refl start
    | cons id rest ih =>
        have first : Later start (start.modifyDescriptor id fun descriptor =>
            { descriptor with dropped := true }) :=
          .modifyDescriptor start id (fun _ => rfl) (fun _ => rfl) fun _ _ => rfl
        exact Later.lasting.trans first (ih _)
  exact Later.lasting.trans (drops _ world) (.of_descriptors (descriptors_releaseUnheld _))

/-- An operation on descriptors or on the source, other than the one that links a dependent.
Operations that may fail count with what they did before they failed. -/
inductive Operates (world : World) : World → Prop where
  | create (name partition tag text : String) :
      Operates world ((newDescriptor name partition tag text : HostM Empty _).eval world).2
  | depend (id dependency : DescriptorId) : Operates world (world.linkDependency id dependency)
  | invalidate (id : DescriptorId) : Operates world (world.invalidate id)
  | check (id : DescriptorId) : Operates world ((isValid id).eval world).2
  | put (name text tag : String) :
      Operates world ((putDocument name text tag : HostM Empty _).eval world).2
  | seed (name text tag : String) (form : Option (String × ExecutableId)) :
      Operates world ((seedDocument name text tag form : HostM Empty _).eval world).2
  | fetch (name : String) : Operates world ((fetchDocument name).eval world).2
  /-- What a fetch does behind a check, when the source has its documents from files. -/
  | read (settings : FileSettings) (name : String) :
      Operates world ((readDocument settings name).eval world).2
  | list : Operates world (listDocuments.eval world).2
  /-- Those outside hold from now on what is in a list. -/
  | letGo (held : Holdings) : Operates world { world with holdings := held }.reclaim
  /-- Anything that happens to other parts of the state: to files, or to the clock. -/
  | elsewhere {after : World} (same : after.descriptors = world.descriptors) :
      Operates world after

theorem Operates.later {world after : World} (operation : world.Operates after) :
    Later world after := by
  cases operation with
  | create name partition tag text => exact Later.documenting.newDescriptor name partition tag text world
  | depend id dependency =>
      refine .modifyDescriptor world id ?_ ?_ ?_
      all_goals
        intro descriptor
        split
      · rfl
      · rfl
      · rfl
      · rfl
      · exact fun dropped => dropped
      · exact fun dropped => dropped
  | invalidate id => exact .invalidate world id
  | check id => exact (isValid_keeps id world).later
  | put name text tag => exact Later.documenting.putDocument name text tag world
  | seed name text tag form => exact Later.documenting.seedDocument name text tag form world
  | fetch name => exact Later.documenting.fetchDocument name world
  | read settings name => exact Later.documenting.readDocument settings name world
  | list => exact Later.documenting.listDocuments world
  | letGo held =>
      have released : Later world { world with holdings := held } := .of_descriptors rfl
      exact Later.lasting.trans released (reclaim_later _)
  | elsewhere same => exact .of_descriptors same

/-- One operation after the other, and the links to dependents that were made, the latest
first. -/
inductive Runs (origin : World) : List (DescriptorId × DescriptorId) → World → Prop where
  | start : Runs origin [] origin
  | operate {links : List (DescriptorId × DescriptorId)} {world after : World}
      (run : Runs origin links world) (operation : world.Operates after) :
      Runs origin links after
  | link {links : List (DescriptorId × DescriptorId)} {world : World}
      {id dependent : DescriptorId} (run : Runs origin links world)
      (known : id.index < world.descriptors.size)
      (dependentKnown : dependent.index < world.descriptors.size) :
      Runs origin ((id, dependent) :: links) (world.linkDependent id dependent)

namespace Runs

variable {origin world : World} {links : List (DescriptorId × DescriptorId)}

/-- Links that were made are there, or what they lead to is marked or dropped. -/
def Recorded (links : List (DescriptorId × DescriptorId)) (world : World) : Prop :=
  ∀ first second, (first, second) ∈ links →
    second ∈ (world.descriptors.get first).dependents ∨
      Descriptors.Settled world.descriptors second

theorem Recorded.later {after : World} (recorded : Recorded links world)
    (progress : Descriptors.Progress world.descriptors after.descriptors) :
    Recorded links after := by
  intro first second made
  rcases recorded first second made with link | settled
  · exact progress.links first second link
  · exact .inr (progress.settled settled)

/-- By induction on the run. -/
theorem later (run : origin.Runs links world) : Later origin world := by
  induction run with
  | start => exact Later.lasting.refl origin
  | operate _ operation ih => exact Later.lasting.trans ih operation.later
  | link _ known dependentKnown ih =>
      intro spread
      obtain ⟨spreadBefore, before⟩ := ih spread
      obtain ⟨spreadAfter, after, -⟩ := Later.linkDependent spreadBefore known dependentKnown
      exact ⟨spreadAfter, before.trans after⟩

/-- By induction on the run. -/
theorem recorded (spread : origin.Spread) (run : origin.Runs links world) :
    Recorded links world := by
  induction run with
  | start => exact fun _ _ made => nomatch made
  | operate run operation ih => exact ih.later (operation.later (run.later spread).1).2
  | @link links world id dependent run known dependentKnown ih =>
      obtain ⟨-, progress, new⟩ :=
        Later.linkDependent (run.later spread).1 known dependentKnown
      intro first second made
      rcases List.mem_cons.1 made with same | before
      · cases same
        exact new
      · exact ih.later progress first second before

/-- A link that was made, to a descriptor that is still held. -/
def Reaches (links : List (DescriptorId × DescriptorId)) (world : World)
    (first second : DescriptorId) : Prop :=
  (first, second) ∈ links ∧ (world.descriptors.get second).dropped = false

/-- Marks have spread along the links that were made.  By induction on the path. -/
theorem marked_of_reached (spread : origin.Spread) (run : origin.Runs links world)
    {first second : DescriptorId} (marked : (world.descriptors.get first).invalidated = true)
    (path : Relation.ReflTransGen (Reaches links world) first second) :
    (world.descriptors.get second).invalidated = true := by
  induction path with
  | refl => exact marked
  | @tail between second _ step ih =>
      obtain ⟨made, held⟩ := step
      have notDropped : ¬(world.descriptors.get second).dropped = true := by simp [held]
      rcases run.recorded spread between second made with link | settled
      · exact (((run.later spread).1.spread between ih second link).resolve_right
          nofun).resolve_left notDropped
      · exact settled.resolve_left notDropped

end Runs

end World

open World

/-- In every state that a run leads to from one without descriptors: a marked descriptor is
marked in all later states, and every check of it answers that it is not valid; a descriptor
that a check finds invalid is marked from then on; whatever is held and reached from a marked
descriptor along links that were ever made is marked; and so is, after a descriptor has been
invalidated, what is reached from that one. -/
theorem invalidity_lasts_and_spreads {origin world : World}
    {links : List (DescriptorId × DescriptorId)} (fresh : origin.descriptors.size = 0)
    (run : origin.Runs links world) :
    (∀ id, (world.descriptors.get id).invalidated = true →
      ∀ further later, world.Runs further later →
        (later.descriptors.get id).invalidated = true ∧
          (isValid id).eval later = (.ok false, later)) ∧
    (∀ id, id.index < world.descriptors.size → (world.descriptors.get id).dropped = false →
      ∀ checked, (isValid id).eval world = (.ok false, checked) →
        ∀ further later, checked.Runs further later →
          (later.descriptors.get id).invalidated = true) ∧
    (∀ first second, (world.descriptors.get first).invalidated = true →
      Relation.ReflTransGen (Runs.Reaches links world) first second →
        (world.descriptors.get second).invalidated = true) ∧
    (∀ id, id.index < world.descriptors.size → (world.descriptors.get id).dropped = false →
      ∀ other, Relation.ReflTransGen (Runs.Reaches links world) id other →
        ((world.invalidate id).descriptors.get other).invalidated = true) := by
  have nothing (id : DescriptorId) : origin.descriptors.get id = default :=
    Arena.get_of_unknown _ (by omega)
  have spreadOrigin : origin.Spread :=
    { known := fun id other member => by
        rw [nothing] at member
        cases member
      spread := fun id marked => by
        rw [nothing] at marked
        cases marked }
  obtain ⟨spread, -⟩ := run.later spreadOrigin
  refine ⟨?_, ?_, ?_, ?_⟩
  · intro id marked further later onward
    have still := (onward.later spread).2.marked id marked
    exact ⟨still, isValid_of_marked still⟩
  · intro id known held checked verdict further later onward
    have marked := marked_of_isValid spread known held verdict
    have kept := (isValid_keeps id world).later spread
    rw [verdict] at kept
    exact (onward.later kept.1).2.marked id marked
  · exact fun first second marked path => run.marked_of_reached spreadOrigin marked path
  · intro id known held other path
    have invalidated := run.operate (.invalidate id)
    refine invalidated.marked_of_reached spreadOrigin (spread.marked_invalidate known held) ?_
    -- invalidating drops nothing, so the path is still there
    refine Relation.ReflTransGen.mono ?_ _ _ path
    rintro first second ⟨made, heldSecond⟩
    exact ⟨made, by rw [(Checked.invalidate world id).dropped, heldSecond]⟩

/-- Two descriptors that are linked to each other. -/
def linkedPair : World :=
  let first := ((newDescriptor "a" "" "" "" : HostM Empty _).eval {}).2
  let second := ((newDescriptor "b" "" "" "" : HostM Empty _).eval first).2
  (second.linkDependent ⟨0⟩ ⟨1⟩).linkDependent ⟨1⟩ ⟨0⟩

theorem invalidity_lasts_and_spreads_pair :
    ({} : World).descriptors.size = 0 ∧
      ({} : World).Runs [(⟨1⟩, ⟨0⟩), (⟨0⟩, ⟨1⟩)] linkedPair ∧
      ((linkedPair.invalidate ⟨1⟩).descriptors.get ⟨0⟩).invalidated = true := by
  have run : ({} : World).Runs [(⟨1⟩, ⟨0⟩), (⟨0⟩, ⟨1⟩)] linkedPair :=
    .link (.link (.operate (.operate .start (.create "a" "" "" "")) (.create "b" "" "" ""))
      (by decide) (by decide)) (by decide) (by decide)
  exact ⟨rfl, run, (invalidity_lasts_and_spreads rfl run).2.2.2 ⟨1⟩ (by decide) (by decide) ⟨0⟩
    (.single ⟨by decide, by decide⟩)⟩

end DocumentHost
