import Mathlib
import DocumentHost.Proofs.Descriptor.Judging

/-!
# The verdict on a dependency graph

The check of a descriptor is a depth-first search that answers for a visited descriptor
before the visit is over.  A search that finds nothing wrong therefore leaves a set of
visited descriptors that is closed under dependencies and sound throughout; a search that
stops early stops at something wrong; and a search that gives up has gone through as many
distinct descriptors as chains may have.
-/

namespace DocumentHost

namespace World

/-- A descriptor depends on another one. -/
def DependsOn (world : World) (id dependency : DescriptorId) : Prop :=
  dependency ∈ (world.descriptors.get id).dependencies

/-- The second descriptor can be reached from the first through dependencies. -/
def Reaches (world : World) : DescriptorId → DescriptorId → Prop :=
  Relation.ReflTransGen world.DependsOn

/-- Somebody holds the descriptor, it is not marked, and the file behind it, if it has to be
looked at then, is current. -/
structure SoundAt (world : World) (now : Instant) (id : DescriptorId) : Prop where
  held : (world.descriptors.get id).dropped = false
  unmarked : (world.descriptors.get id).invalidated = false
  current : ∀ backing, (world.descriptors.get id).backing = some backing →
    backing.Due now → world.FileCurrent backing

/-- The descriptor is dropped or marked, or the file behind it has been modified or is not
there any longer. -/
def Broken (world : World) (id : DescriptorId) : Prop :=
  (world.descriptors.get id).dropped = true ∨
    (world.descriptors.get id).invalidated = true ∨
    ∃ backing, (world.descriptors.get id).backing = some backing ∧ ¬world.FileCurrent backing

/-- An instant between two states. -/
structure Passing (world after : World) (now : Instant) : Prop where
  begun : world.clock.nanoseconds ≤ now.nanoseconds
  ended : now.nanoseconds ≤ after.clock.nanoseconds

theorem SoundAt.earlier {world : World} {now later : Instant} {id : DescriptorId}
    (sound : world.SoundAt later id) (passes : now.nanoseconds ≤ later.nanoseconds) :
    world.SoundAt now id :=
  ⟨sound.held, sound.unmarked, fun backing found due =>
    sound.current backing found (due.later passes)⟩

/-! ## Searching -/

/-- What a search that has found nothing wrong has changed: it looked at the files behind
descriptors that it visited. -/
structure Searched (world : World) (visited : List DescriptorId) (after : World)
    (visitedAfter : List DescriptorId) : Prop where
  files : after.files = world.files
  clock : world.clock.nanoseconds ≤ after.clock.nanoseconds
  grows : visited ⊆ visitedAfter
  same : ∀ other, ∃ backing,
    after.descriptors.get other = { world.descriptors.get other with backing }
  others : ∀ other, other ∈ visited ∨ other ∉ visitedAfter →
    after.descriptors.get other = world.descriptors.get other

namespace Searched

variable {world between after : World} {visited visitedBetween visitedAfter : List DescriptorId}

theorem refl (world : World) (visited : List DescriptorId) :
    Searched world visited world visited :=
  ⟨rfl, Int.le_refl _, List.Subset.refl _, fun _ => ⟨_, rfl⟩, fun _ _ => rfl⟩

theorem trans (first : Searched world visited between visitedBetween)
    (second : Searched between visitedBetween after visitedAfter) :
    Searched world visited after visitedAfter where
  files := second.files.trans first.files
  clock := Int.le_trans first.clock second.clock
  grows := fun _ member => second.grows (first.grows member)
  same other := by
    obtain ⟨_, firstSame⟩ := first.same other
    obtain ⟨backing, secondSame⟩ := second.same other
    exact ⟨backing, by rw [secondSame, firstSame]⟩
  others other aside := by
    rcases aside with seen | unseen
    · rw [second.others other (.inl (first.grows seen)), first.others other (.inl seen)]
    · rw [second.others other (.inr unseen),
        first.others other (.inr fun seen => unseen (second.grows seen))]

theorem dropped (searched : Searched world visited after visitedAfter) (id : DescriptorId) :
    (after.descriptors.get id).dropped = (world.descriptors.get id).dropped := by
  obtain ⟨_, same⟩ := searched.same id
  rw [same]

theorem invalidated (searched : Searched world visited after visitedAfter) (id : DescriptorId) :
    (after.descriptors.get id).invalidated = (world.descriptors.get id).invalidated := by
  obtain ⟨_, same⟩ := searched.same id
  rw [same]

theorem dependencies (searched : Searched world visited after visitedAfter) (id : DescriptorId) :
    (after.descriptors.get id).dependencies = (world.descriptors.get id).dependencies := by
  obtain ⟨_, same⟩ := searched.same id
  rw [same]

theorem reaches (searched : Searched world visited after visitedAfter) :
    after.Reaches = world.Reaches := by
  have same : after.DependsOn = world.DependsOn := by
    funext id dependency
    rw [DependsOn, DependsOn, searched.dependencies]
  rw [Reaches, Reaches, same]

theorem fileCurrent (searched : Searched world visited after visitedAfter) (backing : Backing) :
    after.FileCurrent backing ↔ world.FileCurrent backing := by
  rw [FileCurrent, FileCurrent, searched.files]

/-- The descriptors that the search has not visited are as sound as before. -/
theorem soundAt_iff (searched : Searched world visited after visitedAfter) {id : DescriptorId}
    (unseen : id ∉ visitedAfter) (now : Instant) :
    after.SoundAt now id ↔ world.SoundAt now id := by
  have same := searched.others id (.inr unseen)
  constructor
  · rintro ⟨held, unmarked, current⟩
    rw [same] at held unmarked current
    exact ⟨held, unmarked, fun backing found due =>
      (searched.fileCurrent backing).1 (current backing found due)⟩
  · rintro ⟨held, unmarked, current⟩
    rw [← same] at held unmarked current
    exact ⟨held, unmarked, fun backing found due =>
      (searched.fileCurrent backing).2 (current backing found due)⟩

/-- The look that ends the visit of a descriptor. -/
theorem looked (searched : Searched world visited between visitedAfter) {id : DescriptorId}
    (looks : Looked id between after) (unseen : id ∉ visited) (seen : id ∈ visitedAfter) :
    Searched world visited after visitedAfter where
  files := by
    obtain ⟨descriptors, clock, rest⟩ := looks.rest
    rw [rest]
    exact searched.files
  clock := Int.le_trans searched.clock looks.clock
  grows := searched.grows
  same other := by
    obtain ⟨backing, same⟩ := searched.same other
    by_cases here : other = id
    · subst here
      obtain ⟨backing, lookedSame⟩ := looks.same
      exact ⟨backing, by rw [lookedSame, same]⟩
    · exact ⟨backing, by rw [looks.others other here, same]⟩
  others other aside := by
    have differs : other ≠ id := by
      rintro rfl
      exact aside.elim unseen fun outside => outside seen
    rw [looks.others other differs, searched.others other aside]

end Searched

/-! ## What a search finds -/

/-- One of some descriptors reaches another one. -/
def ReachesFrom (world : World) (roots : List DescriptorId) (id : DescriptorId) : Prop :=
  ∃ root ∈ roots, world.Reaches root id

/-- The newly visited descriptors are sound, and their dependencies have been visited. -/
structure Cleared (world : World) (roots visited : List DescriptorId) (after : World)
    (visitedAfter : List DescriptorId) : Prop where
  searched : Searched world visited after visitedAfter
  roots : ∀ id ∈ roots, id ∈ visitedAfter
  sound : ∀ id ∈ visitedAfter, id ∉ visited →
    ∃ now, Passing world after now ∧ world.SoundAt now id
  closed : ∀ id ∈ visitedAfter, id ∉ visited →
    ∀ dependency, world.DependsOn id dependency → dependency ∈ visitedAfter

/-- Something wrong with a descriptor, which shows at an instant.  The file behind a visited
descriptor is not looked at again. -/
def FailsAt (world : World) (visited : List DescriptorId) (now : Instant) (id : DescriptorId) :
    Prop :=
  (world.descriptors.get id).dropped = true ∨
    (world.descriptors.get id).invalidated = true ∨
    id ∉ visited ∧ ∃ backing, (world.descriptors.get id).backing = some backing ∧
      backing.Due now ∧ ¬world.FileCurrent backing

/-- A descriptor that is not marked and depends on others. -/
structure Linking (world : World) (id : DescriptorId) : Prop where
  unmarked : (world.descriptors.get id).invalidated = false
  depends : (world.descriptors.get id).dependencies ≠ []

theorem Searched.linking {world after : World} {visited visitedAfter : List DescriptorId}
    (searched : Searched world visited after visitedAfter) {id : DescriptorId}
    (linking : after.Linking id) : world.Linking id := by
  obtain ⟨unmarked, depends⟩ := linking
  rw [searched.invalidated] at unmarked
  rw [searched.dependencies] at depends
  exact ⟨unmarked, depends⟩

/-- A search that begins with some roots has found nothing wrong, has found something wrong,
or has gone through as many descriptors as it may. -/
def Finds (world : World) (levels : Nat) (roots visited : List DescriptorId) :
    Except DocumentError (Bool × List DescriptorId) × World → Prop
  | (.ok (true, visitedAfter), after) => Cleared world roots visited after visitedAfter
  | (.ok (false, _), after) => ∃ id now,
      world.ReachesFrom roots id ∧ Passing world after now ∧ world.FailsAt visited now id
  | (.error _, _) => ∃ chain : List DescriptorId, chain.length = levels ∧ chain.Nodup ∧
      ∀ id ∈ chain, world.ReachesFrom roots id ∧ world.Linking id ∧ id ∉ visited

theorem FailsAt.not_soundAt {world : World} {visited : List DescriptorId} {now : Instant}
    {id : DescriptorId} (fails : world.FailsAt visited now id) : ¬world.SoundAt now id := by
  intro sound
  rcases fails with dropped | invalid | ⟨-, backing, found, due, changed⟩
  · simp [sound.held] at dropped
  · simp [sound.unmarked] at invalid
  · exact changed (sound.current backing found due)

theorem FailsAt.broken {world : World} {visited : List DescriptorId} {now : Instant}
    {id : DescriptorId} (fails : world.FailsAt visited now id) : world.Broken id := by
  rcases fails with dropped | invalid | ⟨-, backing, found, -, changed⟩
  · exact .inl dropped
  · exact .inr (.inl invalid)
  · exact .inr (.inr ⟨backing, found, changed⟩)

theorem ReachesFrom.cons {world : World} {roots : List DescriptorId} {first id : DescriptorId}
    (reached : world.ReachesFrom roots id) : world.ReachesFrom (first :: roots) id := by
  obtain ⟨root, member, reaches⟩ := reached
  exact ⟨root, List.mem_cons_of_mem _ member, reaches⟩

theorem ReachesFrom.of_head {world : World} {roots : List DescriptorId} {first id : DescriptorId}
    (reached : world.ReachesFrom [first] id) : world.ReachesFrom (first :: roots) id := by
  obtain ⟨root, member, reaches⟩ := reached
  rw [List.mem_singleton] at member
  exact ⟨root, by simp [member], reaches⟩

/-- What the dependencies of a descriptor reach, the descriptor reaches. -/
theorem ReachesFrom.of_dependencies {world : World} {first id : DescriptorId}
    (reached : world.ReachesFrom (world.descriptors.get first).dependencies id) :
    world.ReachesFrom [first] id := by
  obtain ⟨root, member, reaches⟩ := reached
  exact ⟨first, by simp, Relation.ReflTransGen.head member reaches⟩

/-- After a first search that has found nothing wrong, what a second one finds is what both
find. -/
theorem Finds.after {world between : World} {levels : Nat} {first : DescriptorId}
    {rest visited visitedBetween : List DescriptorId}
    {result : Except DocumentError (Bool × List DescriptorId) × World}
    (cleared : Cleared world [first] visited between visitedBetween)
    (finds : Finds between levels rest visitedBetween result) :
    Finds world levels (first :: rest) visited result := by
  have searched := cleared.searched
  have reachesFrom (id : DescriptorId) (reached : between.ReachesFrom rest id) :
      world.ReachesFrom (first :: rest) id := by
    rw [ReachesFrom, searched.reaches] at reached
    exact ReachesFrom.cons reached
  rcases result with ⟨error | ⟨valid, visitedAfter⟩, after⟩
  · obtain ⟨chain, length, distinct, members⟩ := finds
    refine ⟨chain, length, distinct, fun id member => ?_⟩
    obtain ⟨reached, linking, unseen⟩ := members id member
    exact ⟨reachesFrom id reached, searched.linking linking,
      fun seen => unseen (searched.grows seen)⟩
  cases valid with
  | false =>
      obtain ⟨id, now, reached, passing, fails⟩ := finds
      refine ⟨id, now, reachesFrom id reached,
        ⟨Int.le_trans searched.clock passing.begun, passing.ended⟩, ?_⟩
      rcases fails with dropped | invalid | ⟨unseen, backing, found, due, changed⟩
      · exact .inl (by rwa [searched.dropped] at dropped)
      · exact .inr (.inl (by rwa [searched.invalidated] at invalid))
      · refine .inr (.inr ⟨fun seen => unseen (searched.grows seen), backing, ?_, due, ?_⟩)
        · rwa [searched.others id (.inr unseen)] at found
        · rwa [searched.fileCurrent] at changed
  | true =>
      change Cleared between rest visitedBetween after visitedAfter at finds
      have grown : visitedBetween ⊆ visitedAfter := finds.searched.grows
      refine ⟨searched.trans finds.searched, ?_, ?_, ?_⟩
      · intro id member
        rcases List.mem_cons.1 member with rfl | inRest
        · exact grown (cleared.roots id (by simp))
        · exact finds.roots id inRest
      · intro id seen new
        by_cases early : id ∈ visitedBetween
        · obtain ⟨now, passing, sound⟩ := cleared.sound id early new
          exact ⟨now, ⟨passing.begun, Int.le_trans passing.ended finds.searched.clock⟩, sound⟩
        · obtain ⟨now, passing, sound⟩ := finds.sound id seen early
          exact ⟨now, ⟨Int.le_trans searched.clock passing.begun, passing.ended⟩,
            (searched.soundAt_iff early now).1 sound⟩
      · intro id seen new dependency depends
        by_cases early : id ∈ visitedBetween
        · exact grown (cleared.closed id early new dependency depends)
        · apply finds.closed id seen early
          rwa [DependsOn, searched.dependencies]

/-- By induction on the descriptors, given what one visit finds. -/
theorem judgeEach_finds {levels : Nat}
    {check : DescriptorId → List DescriptorId → HostM DocumentError (Bool × List DescriptorId)}
    (visit : ∀ world id visited, (world.descriptors.get id).dropped = false →
      Finds world levels [id] visited ((check id visited).eval world))
    (world : World) (ids visited : List DescriptorId) :
    Finds world levels ids visited ((judgeEach check ids visited).eval world) := by
  induction ids generalizing world visited with
  | nil =>
      rw [eval_judgeEach_nil]
      exact ⟨.refl world visited, by simp, fun id seen new => absurd seen new,
        fun id seen new => absurd seen new⟩
  | cons id rest ih =>
      cases dropped : (world.descriptors.get id).dropped with
      | true =>
          rw [eval_judgeEach_of_dropped dropped]
          exact ⟨id, world.clock, ⟨id, by simp, .refl⟩, ⟨Int.le_refl _, Int.le_refl _⟩,
            .inl dropped⟩
      | false =>
          rw [eval_judgeEach_of_held dropped]
          have first := visit world id visited dropped
          rcases visited : (check id visited).eval world with
            ⟨error | ⟨valid, visitedBetween⟩, between⟩
          · rw [visited] at first
            obtain ⟨chain, length, distinct, members⟩ := first
            exact ⟨chain, length, distinct, fun other member =>
              ⟨(members other member).1.of_head, (members other member).2⟩⟩
          rw [visited] at first
          cases valid with
          | false =>
              obtain ⟨other, now, reached, passing, fails⟩ := first
              exact ⟨other, now, reached.of_head, passing, fails⟩
          | true => exact Finds.after first (ih between visitedBetween)

/-! ### The visit of a descriptor

The descriptor is visited while its dependencies are searched. -/

theorem FailsAt.of_visiting {world : World} {id other : DescriptorId} {visited : List DescriptorId}
    {now : Instant} (fails : world.FailsAt (id :: visited) now other) :
    world.FailsAt visited now other := by
  rcases fails with dropped | invalid | ⟨unseen, wrong⟩
  · exact .inl dropped
  · exact .inr (.inl invalid)
  · exact .inr (.inr ⟨fun before => unseen (List.mem_cons_of_mem _ before), wrong⟩)

theorem Searched.of_visiting {world after : World} {id : DescriptorId}
    {visited visitedAfter : List DescriptorId}
    (searched : Searched world (id :: visited) after visitedAfter) :
    Searched world visited after visitedAfter :=
  { searched with
    grows := fun _ member => searched.grows (List.mem_cons_of_mem _ member)
    others := fun other aside =>
      searched.others other (aside.imp (List.mem_cons_of_mem _) fun outside => outside) }

/-- The descriptor extends a chain of its dependencies. -/
theorem exists_chain_of_dependencies {world : World} {levels : Nat} {id : DescriptorId}
    {visited chain : List DescriptorId} (linking : world.Linking id) (unseen : id ∉ visited)
    (length : chain.length = levels) (distinct : chain.Nodup)
    (members : ∀ other ∈ chain, world.ReachesFrom (world.descriptors.get id).dependencies other ∧
      world.Linking other ∧ other ∉ id :: visited) :
    ∃ longer : List DescriptorId, longer.length = levels + 1 ∧ longer.Nodup ∧
      ∀ other ∈ longer, world.ReachesFrom [id] other ∧ world.Linking other ∧ other ∉ visited := by
  refine ⟨id :: chain, by simp [length], ?_, ?_⟩
  · rw [List.nodup_cons]
    exact ⟨fun member => (members id member).2.2 (by simp), distinct⟩
  · intro other member
    rcases List.mem_cons.1 member with rfl | inChain
    · exact ⟨⟨other, by simp, .refl⟩, linking, unseen⟩
    · obtain ⟨reached, linking, unseen⟩ := members other inChain
      exact ⟨reached.of_dependencies, linking,
        fun before => unseen (List.mem_cons_of_mem _ before)⟩

/-- When nothing is wrong with its dependencies nor with its file, the visit has cleared the
descriptor. -/
theorem Cleared.visited {world between after : World} {id : DescriptorId}
    {visited visitedAfter : List DescriptorId}
    (below : Cleared world (world.descriptors.get id).dependencies (id :: visited) between
      visitedAfter)
    (looks : Looked id between after) (unseen : id ∉ visited)
    (sound : world.SoundAt between.clock id) :
    Cleared world [id] visited after visitedAfter := by
  have seenAfter : id ∈ visitedAfter := below.searched.grows (by simp)
  refine ⟨below.searched.of_visiting.looked looks unseen seenAfter, by simpa using seenAfter,
    ?_, ?_⟩
  · intro other seenOther new
    by_cases same : other = id
    · subst same
      exact ⟨between.clock, ⟨below.searched.clock, looks.clock⟩, sound⟩
    · obtain ⟨now, passing, sound⟩ := below.sound other seenOther (by simp [same, new])
      exact ⟨now, ⟨passing.begun, Int.le_trans passing.ended looks.clock⟩, sound⟩
  · intro other seenOther new dependency depends
    by_cases same : other = id
    · subst same
      exact below.roots dependency depends
    · exact below.closed other seenOther (by simp [same, new]) dependency depends

/-- When nothing is wrong with its dependencies, the file behind the descriptor decides. -/
theorem settleVisit_finds {world between : World} {levels : Nat} {id : DescriptorId}
    {visited visitedAfter : List DescriptorId}
    (below : Cleared world (world.descriptors.get id).dependencies (id :: visited) between
      visitedAfter)
    (unseen : id ∉ visited) (held : (world.descriptors.get id).dropped = false)
    (unmarked : (world.descriptors.get id).invalidated = false) :
    Finds world levels [id] visited ((settleVisit id true visitedAfter).eval between) := by
  -- the visit of `id` is not over yet, so nothing has touched it
  have untouched : between.descriptors.get id = world.descriptors.get id :=
    below.searched.others id (.inl (by simp))
  obtain ⟨current, after, looks, settled, verdict⟩ := eval_settleVisit id visitedAfter between
  rw [settled]
  rw [untouched] at verdict
  cases current with
  | false =>
      have wrong : ∃ backing, (world.descriptors.get id).backing = some backing ∧
          backing.Due between.clock ∧ ¬world.FileCurrent backing := by
        by_contra fine
        push Not at fine
        have current : false = true := verdict.2 fun backing found due =>
          (below.searched.fileCurrent backing).2 (fine backing found due)
        cases current
      exact ⟨id, between.clock, ⟨id, by simp, .refl⟩, ⟨below.searched.clock, looks.clock⟩,
        .inr (.inr ⟨unseen, wrong⟩)⟩
  | true =>
      have sound : world.SoundAt between.clock id := ⟨held, unmarked, fun backing found due =>
        (below.searched.fileCurrent backing).1 (verdict.1 rfl backing found due)⟩
      exact below.visited looks unseen sound

/-- By induction on the levels of the search. -/
theorem judgeWithin_finds (levels : Nat) (world : World) (id : DescriptorId)
    (visited : List DescriptorId) (held : (world.descriptors.get id).dropped = false) :
    Finds world levels [id] visited ((judgeWithin levels id visited).eval world) := by
  induction levels generalizing world id visited with
  | zero =>
      rw [eval_judgeWithin_zero]
      exact ⟨[], rfl, List.nodup_nil, by simp⟩
  | succ levels ih =>
      cases unmarked : (world.descriptors.get id).invalidated with
      | true =>
          rw [eval_judgeWithin_of_invalidated unmarked]
          exact ⟨id, world.clock, ⟨id, by simp, .refl⟩, ⟨Int.le_refl _, Int.le_refl _⟩,
            .inr (.inl unmarked)⟩
      | false =>
      by_cases seen : id ∈ visited
      · rw [eval_judgeWithin_of_visited unmarked seen]
        exact ⟨.refl world visited, by simpa using seen, fun other seen new => absurd seen new,
          fun other seen new => absurd seen new⟩
      rw [eval_judgeWithin_of_new unmarked seen]
      have below := judgeEach_finds ih world (world.descriptors.get id).dependencies
        (id :: visited)
      rcases searched : (judgeEach (judgeWithin levels) (world.descriptors.get id).dependencies
        (id :: visited)).eval world with ⟨error | ⟨sound, visitedAfter⟩, between⟩
      · rw [searched] at below
        obtain ⟨chain, length, distinct, members⟩ := below
        -- without dependencies the search would have ended here
        have depends : (world.descriptors.get id).dependencies ≠ [] := by
          intro none
          rw [none, eval_judgeEach_nil] at searched
          cases searched
        exact exists_chain_of_dependencies ⟨unmarked, depends⟩ seen length distinct members
      rw [searched] at below
      cases sound with
      | false =>
          obtain ⟨other, now, reached, passing, fails⟩ := below
          dsimp only
          rw [eval_settleVisit_of_unsound]
          exact ⟨other, now, reached.of_dependencies, ⟨passing.begun, passing.ended⟩,
            fails.of_visiting⟩
      | true => exact settleVisit_finds below seen held unmarked

/-- All that can be reached has been visited. -/
theorem Cleared.of_reaches {world after : World} {id : DescriptorId}
    {visitedAfter : List DescriptorId} (cleared : Cleared world [id] [] after visitedAfter)
    {reached : DescriptorId} (reaches : world.Reaches id reached) : reached ∈ visitedAfter := by
  induction reaches with
  | refl => exact cleared.roots id (by simp)
  | tail _ depends ih => exact cleared.closed _ ih (by simp) _ depends

/-- Distinct descriptors that a descriptor reaches are no more than it reaches. -/
theorem length_le_encard_of_chain {world : World} {id : DescriptorId} {chain : List DescriptorId}
    (distinct : chain.Nodup) (reached : ∀ other ∈ chain, world.ReachesFrom [id] other) :
    (chain.length : ℕ∞) ≤ {other | world.Reaches id other}.encard := by
  have members : (chain.toFinset : Set DescriptorId) ⊆ {other | world.Reaches id other} := by
    intro other member
    obtain ⟨root, isRoot, reaches⟩ := reached other (by simpa using member)
    rw [List.mem_singleton] at isRoot
    rwa [isRoot] at reaches
  calc (chain.length : ℕ∞) = (chain.toFinset : Set DescriptorId).encard := by
        rw [Set.encard_coe_eq_coe_finsetCard, List.toFinset_card_of_nodup distinct]
    _ ≤ _ := Set.encard_le_encard members

/-- A verdict is that of a search which begins with the descriptor. -/
theorem exists_search_of_isValid {world after : World} {id : DescriptorId} {valid : Bool}
    (held : (world.descriptors.get id).dropped = false)
    (checked : (isValid id).eval world = (.ok valid, after)) :
    ∃ visited, Finds world (dependencyLimit + 1) [id] [] (.ok (valid, visited), after) := by
  have finds := judgeWithin_finds (dependencyLimit + 1) world id [] held
  rw [eval_isValid] at checked
  rcases searched : (judgeWithin (dependencyLimit + 1) id []).eval world with
    ⟨error | ⟨valid, visited⟩, between⟩
  · rw [searched] at checked
    cases checked
  · rw [searched] at checked finds
    cases checked
    exact ⟨visited, finds⟩

/-- What is reached from a descriptor that is found valid is sound. -/
theorem soundAt_of_reaches {world after : World} {id reached : DescriptorId}
    (held : (world.descriptors.get id).dropped = false)
    (checked : (isValid id).eval world = (.ok true, after)) (reaches : world.Reaches id reached) :
    world.SoundAt world.clock reached := by
  obtain ⟨visited, finds⟩ := exists_search_of_isValid held checked
  have cleared : Cleared world [id] [] after visited := finds
  obtain ⟨now, passing, sound⟩ := cleared.sound reached (cleared.of_reaches reaches) (by simp)
  exact sound.earlier passing.begun

/-- What a check finds valid is sound. -/
theorem soundAt_of_isValid {world after : World} {id : DescriptorId}
    (held : (world.descriptors.get id).dropped = false)
    (checked : (isValid id).eval world = (.ok true, after)) :
    world.SoundAt world.clock id :=
  soundAt_of_reaches held checked .refl

/-- What a check finds invalid reaches something broken. -/
theorem exists_broken_of_isValid {world after : World} {id : DescriptorId}
    (held : (world.descriptors.get id).dropped = false)
    (checked : (isValid id).eval world = (.ok false, after)) :
    ∃ reached, world.Reaches id reached ∧ world.Broken reached := by
  obtain ⟨visited, finds⟩ := exists_search_of_isValid held checked
  obtain ⟨reached, now, ⟨root, isRoot, reaches⟩, -, fails⟩ := finds
  rw [List.mem_singleton] at isRoot
  exact ⟨reached, isRoot ▸ reaches, fails.broken⟩

/-- A check that gives up has gone through more descriptors than chains may have. -/
theorem exists_chain_of_isValid {world after : World} {id : DescriptorId} {error : DocumentError}
    (held : (world.descriptors.get id).dropped = false)
    (checked : (isValid id).eval world = (.error error, after)) :
    ∃ chain : List DescriptorId, dependencyLimit < chain.length ∧ chain.Nodup ∧
      ∀ other ∈ chain, world.Linking other := by
  have finds := judgeWithin_finds (dependencyLimit + 1) world id [] held
  rw [eval_isValid] at checked
  rcases searched : (judgeWithin (dependencyLimit + 1) id []).eval world with
    ⟨reason | ⟨valid, visited⟩, between⟩
  · rw [searched] at finds
    obtain ⟨chain, length, distinct, members⟩ := finds
    exact ⟨chain, by omega, distinct, fun other member => (members other member).2.1⟩
  · rw [searched] at checked
    cases checked

end World

/-- A descriptor that is found valid reaches only what is sound, and one that is found
invalid reaches something broken.  Where no more descriptors can be reached than a chain may
have, there is a verdict, and it is favourable just when all that can be reached is sound at
the instant at which it is looked at; if meanwhile no file comes due for a look, that is
the instant at which the check begins. -/
theorem isValid_verdict (world : World) (id : DescriptorId)
    (held : (world.descriptors.get id).dropped = false) :
    (∀ after, (isValid id).eval world = (.ok true, after) →
      ∀ reached, world.Reaches id reached → world.SoundAt world.clock reached) ∧
    (∀ after, (isValid id).eval world = (.ok false, after) →
      ∃ reached, world.Reaches id reached ∧ world.Broken reached) ∧
    ({reached | world.Reaches id reached}.encard ≤ dependencyLimit →
      ∃ verdict after, (isValid id).eval world = (.ok verdict, after) ∧
        (∃ look : DescriptorId → Instant, (∀ reached, world.Passing after (look reached)) ∧
          (verdict = true ↔
            ∀ reached, world.Reaches id reached → world.SoundAt (look reached) reached)) ∧
        ((∀ reached, world.Reaches id reached → world.SoundAt world.clock reached →
            world.SoundAt after.clock reached) →
          (verdict = true ↔
            ∀ reached, world.Reaches id reached → world.SoundAt world.clock reached))) := by
  have finds := World.judgeWithin_finds (dependencyLimit + 1) world id [] held
  rw [eval_isValid]
  rcases searched : (judgeWithin (dependencyLimit + 1) id []).eval world with
    ⟨error | ⟨valid, visited⟩, after⟩
  · rw [searched] at finds
    obtain ⟨chain, length, distinct, members⟩ := finds
    refine ⟨nofun, nofun, fun few => ?_⟩
    have many := World.length_le_encard_of_chain distinct fun other member => (members other member).1
    rw [length] at many
    exact absurd (many.trans few) (by decide)
  rw [searched] at finds
  cases valid with
  | true =>
      change World.Cleared world [id] [] after visited at finds
      have sound (reached : DescriptorId) (reaches : world.Reaches id reached) :
          ∃ now, world.Passing after now ∧ world.SoundAt now reached :=
        finds.sound reached (finds.of_reaches reaches) (by simp)
      have soundFirst (reached : DescriptorId) (reaches : world.Reaches id reached) :
          world.SoundAt world.clock reached := by
        obtain ⟨now, passing, soundThen⟩ := sound reached reaches
        exact soundThen.earlier passing.begun
      refine ⟨fun _ _ => soundFirst, nofun, fun _ => ?_⟩
      refine ⟨true, after, rfl, ?_, fun _ => ⟨fun _ => soundFirst, fun _ => rfl⟩⟩
      have looked (reached : DescriptorId) : ∃ now, world.Passing after now ∧
          (world.Reaches id reached → world.SoundAt now reached) := by
        by_cases reaches : world.Reaches id reached
        · obtain ⟨now, passing, soundThen⟩ := sound reached reaches
          exact ⟨now, passing, fun _ => soundThen⟩
        · exact ⟨world.clock, ⟨Int.le_refl _, finds.searched.clock⟩,
            fun reaching => absurd reaching reaches⟩
      choose look passing soundThen using looked
      exact ⟨look, passing, fun _ => soundThen, fun _ => rfl⟩
  | false =>
      obtain ⟨other, now, ⟨root, isRoot, reaches⟩, passing, fails⟩ := finds
      rw [List.mem_singleton] at isRoot
      subst isRoot
      refine ⟨nofun, fun _ _ => ⟨other, reaches, fails.broken⟩, fun _ => ?_⟩
      refine ⟨false, after, rfl, ⟨fun _ => now, fun _ => passing, nofun, fun sound => ?_⟩,
        fun steady => ⟨nofun, fun sound => ?_⟩⟩
      · exact absurd (sound other reaches) fails.not_soundAt
      · have soundLast := steady other reaches (sound other reaches)
        exact absurd (soundLast.earlier passing.ended) fails.not_soundAt

/-- Three descriptors in a ring, one of which depends on itself as well and comes from a
file. -/
def ring : World where
  descriptors := ⟨[
    { name := "first", partition := "", tag := "", text := "", timestamp := ⟨0⟩
      dependencies := [⟨1⟩, ⟨2⟩] },
    { name := "second", partition := "", tag := "", text := "", timestamp := ⟨0⟩
      dependencies := [⟨2⟩, ⟨0⟩] },
    { name := "third", partition := "", tag := "", text := "", timestamp := ⟨0⟩
      dependencies := [⟨2⟩, ⟨0⟩]
      backing := some ⟨"page", ⟨0⟩, ⟨true, 0⟩, ⟨0⟩⟩ }]⟩
  files := { working := [], entries := [(["page"], .file [] ⟨0⟩)] }

theorem reaches_ring {id : DescriptorId} (reaches : ring.Reaches ⟨0⟩ id) :
    id ∈ ({⟨0⟩, ⟨1⟩, ⟨2⟩} : Finset DescriptorId) := by
  induction reaches with
  | refl => decide
  | tail _ depends ih =>
      simp only [Finset.mem_insert, Finset.mem_singleton] at ih
      rcases ih with rfl | rfl | rfl
      all_goals
        simp only [World.DependsOn, ring, Arena.get, List.getD_cons_zero, List.getD_cons_succ,
          List.mem_cons, List.not_mem_nil, or_false] at depends
        rcases depends with rfl | rfl <;> decide

theorem isValid_verdict_ring :
    (ring.descriptors.get ⟨0⟩).dropped = false ∧
    {id | ring.Reaches ⟨0⟩ id}.encard ≤ dependencyLimit ∧
    ∃ after, (isValid ⟨0⟩).eval ring = (.ok true, after) ∧
      ∀ reached, ring.Reaches ⟨0⟩ reached → ring.SoundAt ring.clock reached := by
  have held : (ring.descriptors.get ⟨0⟩).dropped = false := rfl
  have few : {id | ring.Reaches ⟨0⟩ id}.encard ≤ dependencyLimit :=
    calc {id | ring.Reaches ⟨0⟩ id}.encard
        ≤ (({⟨0⟩, ⟨1⟩, ⟨2⟩} : Finset DescriptorId) : Set DescriptorId).encard :=
          Set.encard_le_encard fun id reaches => reaches_ring reaches
      _ = 3 := by rw [Set.encard_coe_eq_coe_finsetCard]; rfl
      _ ≤ dependencyLimit := by decide
  obtain ⟨sound, -, decided⟩ := isValid_verdict ring ⟨0⟩ held
  obtain ⟨verdict, after, checked, -, -⟩ := decided few
  have favourable : ((isValid ⟨0⟩).eval ring).1 = .ok true := by cbv
  rw [checked] at favourable
  cases favourable
  exact ⟨held, few, after, checked, sound after checked⟩

end DocumentHost
