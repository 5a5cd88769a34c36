import DocumentHost.Proofs.Descriptor.Tending
import DocumentHost.Proofs.Host.Obtaining

/-!
# One valid descriptor for a name, one executable for a compile key

From a source that keeps nothing yet on, whatever is fetched, put, seeded, created, run and
invalidated: of the descriptors of a name at most one is not marked, and it is the one that
the source keeps.  A slot that is filled stays as it is.  So when the executable of a name
is another one than before, the descriptor of the first one has been marked.
-/

namespace DocumentHost

namespace World

/-- The compiled form of a descriptor under a key. -/
def slot? (world : World) (id : DescriptorId) (key : String) : Option ExecutableId :=
  (world.descriptors.get id).slots.get? key

/-- A source is there, and it has not handed out anything yet. -/
structure Unused (world : World) : Prop where
  sourced : world.source.isSome = true
  entries : world.documentEntries = []
  descriptors : world.descriptors.size = 0

theorem Unused.tended {world : World} (unused : world.Unused) : Tended [] world := by
  have nothing (id : DescriptorId) : world.descriptors.get id = default :=
    Arena.get_of_unknown _ (by rw [unused.descriptors]; omega)
  have noEntry (name : String) (id : DescriptorId) : (name, id) ∉ world.documentEntries := by
    rw [unused.entries]
    exact List.not_mem_nil
  refine ⟨unused.sourced, ⟨?_, ?_⟩, ?_, ?_, ?_, ?_⟩
  · intro id other member
    rw [nothing] at member
    cases member
  · intro id marked
    rw [nothing] at marked
    cases marked
  · exact fun name id member => absurd member (noEntry name id)
  · exact fun name id member => absurd member (noEntry name id)
  · exact fun name id member => absurd member (noEntry name id)
  · intro id known
    rw [unused.descriptors] at known
    omega

/-- Of two forms the one is found in the slot that was offered first. -/
theorem slot?_fillSlot (world : World) {id : DescriptorId} (key : String)
    (executable : ExecutableId) (known : id.index < world.descriptors.size) :
    (world.fillSlot id key executable).2.slot? id key =
      some (world.fillSlot id key executable).1 := by
  unfold slot? World.fillSlot
  split
  · rename_i found
    exact found
  · rw [World.modifyDescriptor, Arena.get_modify_self _ _ known]
    exact NameTable.get?_insert_self ..

namespace Tended

variable {world after between : World} {setting : Setting} {name : String} {id : DescriptorId}

/-- The compilation of a document fills slots of its in-flow documents only. -/
theorem compile (tended : Tended [] world) (setting : Setting) (document : Document)
    (known : id.index < world.descriptors.size) :
    Tends (fun name => ∃ number, name = inFlowDocumentName document number) world []
      ((newExecutable setting document).eval world).2 := by
  have tolerant := Tending.tolerant
    (fun name => ∃ number, name = inFlowDocumentName document number) id
  refine tolerant.newExecutable (fun number code tag form => ?_) setting world known tended
  exact fun _ _ still => still.plant document _ code tag form ⟨number, rfl⟩

/-- An executable that is created is found in the slot of the descriptor that was fetched. -/
theorem create (tended : Tended [] world) {executable : ExecutableId}
    (created : (obtainExecutable setting name).eval world = (.ok executable, after)) :
    ∃ id between, (fetchDocument name).eval world = (.ok id, between) ∧
      between.kept? name = some id ∧ Newly name between id ∧
      Tends (fun _ => True) between [] after ∧
      after.slot? id setting.options.compileKey = some executable := by
  obtain ⟨sourced, source⟩ := sourced_of_obtainExecutable created
  obtain ⟨tends, isFetched⟩ : Tends (fun _ => True) world [] _ ∧ _ := tended.fetch name
  rcases fetched : (fetchDocument name).eval world with ⟨error | id, between⟩
  · rw [obtainExecutable, HostM.eval_bind_of_ok (HostM.eval_get _),
      if_neg (by simp [sourced, source]),
      HostM.eval_bind_of_error (HostM.eval_convert_of_error fetched)] at created
    cases created
  rw [fetched] at tends isFetched
  obtain ⟨kept, newly⟩ := isFetched
  refine ⟨id, between, rfl, kept, newly, ?_⟩
  rw [eval_obtainExecutable_of_fetched sourced source fetched] at created
  cases slot : (between.descriptors.get id).slots.get? setting.options.compileKey with
  | some present =>
      rw [slot] at created
      cases created
      exact ⟨tends.tended.refl, slot⟩
  | none =>
      have compiles := tends.tended.compile setting (between.documentOf id) newly.known
      rw [slot] at created
      rcases made : (newExecutable setting (between.documentOf id)).eval between with
        ⟨error | new, behind⟩
      · rw [made] at created
        cases created
      · rw [made] at created compiles
        cases created
        have known := Nat.lt_of_lt_of_le newly.known compiles.continues.progress.size
        have compiled : Tends (fun _ => True) between [] behind :=
          ⟨compiles.tended, compiles.continues.mono fun _ _ => trivial⟩
        exact ⟨compiled.trans (compiled.tended.fillSlot _ new trivial),
          slot?_fillSlot behind _ new known⟩

/-- What has been done since an executable was created goes on from the state it was created
in. -/
theorem created (tended : Tended [] world) {allowed : Bond → Prop} {executable : ExecutableId}
    {later : World}
    (created : (obtainExecutable setting name).eval world = (.ok executable, after))
    (onward : Changes allowed after later) : Tends (fun _ => True) after [] later := by
  obtain ⟨_, _, -, -, -, tends, -⟩ := tended.create created
  exact tends.tended.changes onward

/-- As long as the descriptor that an executable was created for is not marked, the executable
is what is created under the name and key. -/
theorem created_again (tended : Tended [] world) {allowed : Bond → Prop}
    {otherSetting : Setting} {first second : ExecutableId} {fetched later behind : World}
    (sameKey : setting.options.compileKey = otherSetting.options.compileKey)
    (isFetched : (fetchDocument name).eval world = (.ok id, fetched))
    (created : (obtainExecutable setting name).eval world = (.ok first, after))
    (onward : Changes allowed after later)
    (createdLater : (obtainExecutable otherSetting name).eval later = (.ok second, behind))
    (unmarked : (((fetchDocument name).eval later).2.descriptors.get id).invalidated = false) :
    second = first := by
  obtain ⟨fetchedId, _, fetchedAgain, -, newly, tends, slot⟩ := tended.create created
  rw [isFetched] at fetchedAgain
  cases fetchedAgain
  have tendsLater := tends.trans (tends.tended.changes onward)
  obtain ⟨otherId, otherFetched, otherIsFetched, otherKept, otherNewly, tendsBehind, otherSlot⟩ :=
    tendsLater.tended.create createdLater
  obtain ⟨fetches, -⟩ : Tends (fun _ => True) later [] _ ∧ _ := tendsLater.tended.fetch name
  rw [otherIsFetched] at fetches unmarked
  -- an unmarked descriptor of the name is the one that was fetched, and its slot is filled
  have continues := (tendsLater.trans fetches).continues
  have known := Nat.lt_of_lt_of_le newly.known continues.progress.size
  have kept := (fetches.tended.kept id known unmarked).resolve_right List.not_mem_nil
  rw [continues.names id newly.known, newly.named, otherKept] at kept
  cases kept
  have filled := (tends.tended.changes onward).continues.slots id _ first slot
  have filledBehind := (fetches.continues.trans tendsBehind.continues).slots id _ first filled
  rw [← sameKey, slot?, filledBehind] at otherSlot
  exact (Option.some.inj otherSlot).symm

/-- A compilation that fails leaves the slot empty, unless one of its in-flow documents is
the document itself. -/
theorem create_failed (tended : Tended [] world) (sourced : setting.sourced = true)
    (fetched : (fetchDocument name).eval world = (.ok id, between)) {error : ParsingError}
    (failed : (obtainExecutable setting name).eval world = (.error error, after))
    (apart : ∀ number, inFlowDocumentName (between.documentOf id) number ≠ name) :
    after.slot? id setting.options.compileKey = none := by
  have source : world.source.isNone = false := by
    simpa using tended.sourced
  obtain ⟨tends, isFetched⟩ : Tends (fun _ => True) world [] _ ∧ _ := tended.fetch name
  rw [fetched] at tends isFetched
  obtain ⟨-, newly⟩ := isFetched
  rw [eval_obtainExecutable_of_fetched sourced source fetched] at failed
  cases slot : (between.descriptors.get id).slots.get? setting.options.compileKey with
  | some present =>
      rw [slot] at failed
      cases failed
  | none =>
      have compiles := tends.tended.compile setting (between.documentOf id) newly.known
      rw [slot] at failed
      rcases made : (newExecutable setting (between.documentOf id)).eval between with
        ⟨reason | new, behind⟩
      · rw [made] at failed compiles
        cases failed
        have same := compiles.continues.others id newly.known (by
          rintro ⟨number, isInFlow⟩
          exact apart number (isInFlow.symm.trans newly.named))
        rw [slot?, same, slot]
      · rw [made] at failed
        cases failed

/-- Where the slot is empty, what the compilation comes to is what the creation comes to. -/
theorem create_made (tended : Tended [] world) (sourced : setting.sourced = true)
    (fetched : (fetchDocument name).eval world = (.ok id, between))
    (empty : between.slot? id setting.options.compileKey = none) {executable : ExecutableId}
    (made : (newExecutable setting (between.documentOf id)).eval between =
      (.ok executable, after)) :
    ∃ created behind, (obtainExecutable setting name).eval world = (.ok created, behind) := by
  have source : world.source.isNone = false := by
    simpa using tended.sourced
  rw [slot?] at empty
  rw [eval_obtainExecutable_of_fetched sourced source fetched, empty]
  dsimp only
  rw [made]
  exact ⟨_, _, rfl⟩

/-- By induction on the names. -/
theorem fetchAll (tended : Tended [] world) (names : List String) {ids : List DescriptorId}
    (fetched : (fetchDocuments names).eval world = (.ok ids, after)) :
    Tended [] after ∧ ∀ id ∈ ids, id.index < after.descriptors.size := by
  induction names generalizing world ids with
  | nil =>
      cases fetched
      exact ⟨tended, nofun⟩
  | cons name rest ih =>
      obtain ⟨first, between, one, others⟩ := HostM.eval_bind_eq_ok_iff.1 fetched
      obtain ⟨read, behind, many, returned⟩ := HostM.eval_bind_eq_ok_iff.1 others
      cases returned
      obtain ⟨tends, isFetched⟩ : Tends (fun _ => True) world [] _ ∧ _ := tended.fetch name
      rw [one] at tends isFetched
      have grows : between.descriptors.size ≤ after.descriptors.size := by
        have fetchesAll : (fetchDocuments rest).Keeps (Tending (fun _ => True) first) :=
          (Tending.tolerant _ first).lasting.fetchDocuments
            (fun name _ _ still => (still.fetch name).1) rest
        have tendsRest := fetchesAll between isFetched.2.known tends.tended
        rw [many] at tendsRest
        exact tendsRest.continues.progress.size
      obtain ⟨tendedAfter, known⟩ := ih tends.tended many
      refine ⟨tendedAfter, fun id member => ?_⟩
      rcases List.mem_cons.1 member with rfl | inRest
      · exact Nat.lt_of_lt_of_le isFetched.2.known grows
      · exact known id inRest

/-- What is listed exists. -/
theorem list (tended : Tended [] world) {ids : List DescriptorId}
    (listed : listDocuments.eval world = (.ok ids, after)) :
    ∀ id ∈ ids, id.index < after.descriptors.size := by
  have standing {state : World} (stateTended : Tended [] state) (id : DescriptorId)
      (member : id ∈ state.standing) : id.index < state.descriptors.size := by
    obtain ⟨source, found, entries, -⟩ := stateTended.exists_source
    rw [World.standing, found] at member
    obtain ⟨entry, isEntry, rfl⟩ := List.mem_map.1 (List.mem_filter.1 member).1
    exact stateTended.known entry.1 entry.2 (by rwa [entries])
  rw [listDocuments, HostM.eval_bind_of_ok (HostM.eval_get _)] at listed
  dsimp only at listed
  split at listed
  · obtain ⟨names, between, named, rest⟩ := HostM.eval_bind_eq_ok_iff.1 listed
    rw [HostM.eval_ofExcept] at named
    obtain rfl : world = between := congrArg Prod.snd named
    obtain ⟨read, behind, fetched, sorted⟩ := HostM.eval_bind_eq_ok_iff.1 rest
    obtain ⟨tendedAfter, known⟩ := tended.fetchAll names fetched
    cases sorted
    intro id member
    rw [World.sortedByName, List.mem_mergeSort] at member
    rcases List.mem_append.1 member with isRead | seeded
    · exact known id isRead
    · exact standing tendedAfter id (List.mem_filter.1 seeded).1
  · cases listed
    intro id member
    rw [World.sortedByName, List.mem_mergeSort] at member
    exact standing tended id member

end Tended

end World

open World

/-- On every run from an unused source on: of the descriptors that exist for a name at most
one is not marked, and that one the source keeps; what is fetched, put or seeded under a name
is kept under it, and what is listed exists; a slot that is filled stays as it is, whatever is
offered; a creation that fails leaves the slot empty, and a later one that compiles the
document succeeds; and of two creations with equal keys that give different executables, the
descriptor of the first has been marked by the time the second has fetched its own. -/
theorem one_valid_descriptor_and_executable {allowed : Bond → Prop} {origin world : World}
    (unused : origin.Unused) (run : ActsOn allowed origin world) :
    (∀ first second, first.index < world.descriptors.size →
      second.index < world.descriptors.size →
      (world.descriptors.get first).name = (world.descriptors.get second).name →
      (world.descriptors.get first).invalidated = false →
      (world.descriptors.get second).invalidated = false →
        first = second ∧ world.kept? (world.descriptors.get first).name = some first) ∧
    ((∀ name id after, (fetchDocument name).eval world = (.ok id, after) →
        after.kept? name = some id ∧ (after.descriptors.get id).name = name) ∧
      (∀ name text tag id after,
        (putDocument name text tag : HostM Empty _).eval world = (.ok id, after) →
          after.kept? name = some id ∧ (after.descriptors.get id).name = name) ∧
      (∀ name text tag form id after,
        (seedDocument name text tag form : HostM Empty _).eval world = (.ok id, after) →
          after.kept? name = some id ∧ (after.descriptors.get id).name = name) ∧
      ∀ ids after, listDocuments.eval world = (.ok ids, after) →
        ∀ id ∈ ids, id.index < after.descriptors.size) ∧
    (∀ id key executable, world.slot? id key = some executable →
      ∀ later, ActsOn allowed world later →
        later.slot? id key = some executable ∧
          ∀ other, (later.fillSlot id key other).1 = executable) ∧
    (∀ (setting : Setting) name id between, setting.sourced = true →
      (fetchDocument name).eval world = (.ok id, between) →
        (∀ error after, (obtainExecutable setting name).eval world = (.error error, after) →
          (∀ number, inFlowDocumentName (between.documentOf id) number ≠ name) →
            after.slot? id setting.options.compileKey = none) ∧
        (between.slot? id setting.options.compileKey = none →
          ∀ executable after, (newExecutable setting (between.documentOf id)).eval between =
            (.ok executable, after) →
              ∃ created behind,
                (obtainExecutable setting name).eval world = (.ok created, behind))) ∧
    (∀ (setting otherSetting : Setting) name first second after later behind,
      setting.options.compileKey = otherSetting.options.compileKey →
      (obtainExecutable setting name).eval world = (.ok first, after) →
      ActsOn allowed after later →
      (obtainExecutable otherSetting name).eval later = (.ok second, behind) →
      first ≠ second →
        ∃ id fetched otherId otherFetched,
          (fetchDocument name).eval world = (.ok id, fetched) ∧
          (fetched.descriptors.get id).invalidated = false ∧
          after.slot? id setting.options.compileKey = some first ∧
          (fetchDocument name).eval later = (.ok otherId, otherFetched) ∧
          (otherFetched.descriptors.get id).invalidated = true) := by
  have tended : Tended [] world := (unused.tended.changes run.changes).tended
  have named {name : String} {id : DescriptorId} {after : World} (still : Tended [] after)
      (kept : after.kept? name = some id) : (after.descriptors.get id).name = name :=
    still.named name id (mem_documentEntries_of_kept kept)
  refine ⟨?_, ⟨?_, ?_, ?_, ?_⟩, ?_, ?_, ?_⟩
  · intro first second firstKnown secondKnown sameName firstUnmarked secondUnmarked
    have firstKept := (tended.kept first firstKnown firstUnmarked).resolve_right List.not_mem_nil
    have secondKept := (tended.kept second secondKnown secondUnmarked).resolve_right List.not_mem_nil
    rw [← sameName, firstKept] at secondKept
    exact ⟨Option.some.inj secondKept, firstKept⟩
  · intro name id after fetched
    obtain ⟨-, isFetched⟩ : Tends (fun _ => True) world [] _ ∧ _ := tended.fetch name
    rw [fetched] at isFetched
    exact ⟨isFetched.1, isFetched.2.named⟩
  · intro name text tag id after puts
    obtain ⟨tends, put, done, kept⟩ : Tends (fun _ => True) world [] _ ∧ _ :=
      tended.put (ε := Empty) name text tag
    rw [puts] at tends done kept
    cases done
    exact ⟨kept, named tends.tended kept⟩
  · intro name text tag form id after seeds
    obtain ⟨-, seeded, done, kept, newly⟩ : Tends (fun _ => True) world [] _ ∧ _ :=
      tended.seed (ε := Empty) name text tag form trivial
    rw [seeds] at done kept newly
    cases done
    exact ⟨kept, newly.named⟩
  · exact fun ids after listed => tended.list listed
  · intro id key executable slot later onward
    have still := (tended.changes onward.changes).continues.slots id key executable slot
    refine ⟨still, fun other => ?_⟩
    rw [World.fillSlot, still]
  · intro setting name id between sourced fetched
    exact ⟨fun error after failed apart => tended.create_failed sourced fetched failed apart,
      fun empty executable after made => tended.create_made sourced fetched empty made⟩
  · intro setting otherSetting name first second after later behind sameKey created onward
      createdLater differ
    obtain ⟨id, fetched, isFetched, -, newly, -, slot⟩ := tended.create created
    have tendsLater : Tended [] later := (tended.created created onward.changes).tended
    obtain ⟨otherId, otherFetched, otherIsFetched, -⟩ := tendsLater.create createdLater
    refine ⟨id, fetched, otherId, otherFetched, isFetched, newly.unmarked, slot, otherIsFetched, ?_⟩
    cases unmarked : (otherFetched.descriptors.get id).invalidated with
    | true => rfl
    | false =>
        have again := tended.created_again sameKey isFetched created onward.changes createdLater
          (by rw [otherIsFetched]; exact unmarked)
        exact absurd again.symm differ

/-- A document `a` is put, created, put again and created again. -/
def asText : Setting where
  registry := ⟨0⟩
  sourced := true
  options := { parser := textParser }

def stored : World :=
  ((putDocument "a" "x" "" : HostM Empty _).eval { source := some (.inMemory "m") }).2

def storedAgain : World :=
  ((putDocument "a" "y" "" : HostM Empty _).eval
    ((obtainExecutable asText "a").eval stored).2).2

theorem created_stored : ((obtainExecutable asText "a").eval stored).1 = .ok ⟨0⟩ :=
  rfl

/-- The first descriptor has no dependents, so that it is the only one marked. -/
theorem descriptors_storedAgain :
    storedAgain.descriptors = { items := [
      { name := "a", partition := "m", tag := "", text := "x", timestamp := ⟨0⟩,
        slots := NameTable.insert {} asText.options.compileKey ⟨0⟩, invalidated := true },
      { name := "a", partition := "m", tag := "", text := "y", timestamp := ⟨2000⟩ }] } := by
  change Descriptors.invalidateAll [⟨0⟩] { items := [
      { name := "a", partition := "m", tag := "", text := "x", timestamp := ⟨0⟩,
        slots := NameTable.insert {} asText.options.compileKey ⟨0⟩ },
      { name := "a", partition := "m", tag := "", text := "y", timestamp := ⟨2000⟩ }] } = _
  rw [Descriptors.invalidateAll, if_pos (by decide)]
  exact Descriptors.invalidateAll.eq_1 _

theorem created_storedAgain : ((obtainExecutable asText "a").eval storedAgain).1 = .ok ⟨1⟩ := by
  have again : storedAgain = { storedAgain with descriptors := { items := [
      { name := "a", partition := "m", tag := "", text := "x", timestamp := ⟨0⟩,
        slots := NameTable.insert {} asText.options.compileKey ⟨0⟩, invalidated := true },
      { name := "a", partition := "m", tag := "", text := "y", timestamp := ⟨2000⟩ }] } } := by
    rw [← descriptors_storedAgain]
  rw [again]
  rfl

theorem one_valid_descriptor_and_executable_replaced :
    ({ source := some (.inMemory "m") } : World).Unused ∧
      ∃ id fetched otherId otherFetched,
        (fetchDocument "a").eval stored = (.ok id, fetched) ∧
        (fetched.descriptors.get id).invalidated = false ∧
        ((obtainExecutable asText "a").eval stored).2.slot? id asText.options.compileKey =
          some ⟨0⟩ ∧
        (fetchDocument "a").eval storedAgain = (.ok otherId, otherFetched) ∧
        (otherFetched.descriptors.get id).invalidated = true := by
  have unused : ({ source := some (.inMemory "m") } : World).Unused := ⟨rfl, rfl, rfl⟩
  have run : ActsOn (fun _ => True) { source := some (.inMemory "m") } stored :=
    .single (.put "a" "x" "")
  have onward : ActsOn (fun _ => True) ((obtainExecutable asText "a").eval stored).2 storedAgain :=
    .single (.put "a" "y" "")
  exact ⟨unused, (one_valid_descriptor_and_executable unused run).2.2.2.2 asText asText "a" ⟨0⟩ ⟨1⟩
    _ storedAgain _ rfl (Prod.ext created_stored rfl) onward (Prod.ext created_storedAgain rfl)
    (by decide)⟩

end DocumentHost
