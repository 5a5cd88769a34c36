import DocumentHost.Proofs.Host.Agreement
import DocumentHost.Proofs.Host.Brackets
import DocumentHost.Proofs.Host.Surroundings

/-!
# Fetching does not look around

A document source pays no attention to the surroundings of its documents.  Two states that
differ in their surroundings only therefore get the same documents, and differ in their
surroundings only afterwards.
-/

namespace DocumentHost

/-- A relation between states that differ in their surroundings only, which lasts through
what a document source does in both of them. -/
structure Sourcing (Related : World → World → Prop) : Prop where
  sameStore : ∀ {world other}, Related world other → World.SameStore world other
  books : ∀ {world other change}, Bookkeeping change → Related world other →
    Related (change world) (change other)
  hold : ∀ {world other} (more : Holdings), Related world other →
    Related (world.holdingMore more) (other.holdingMore more)
  letGo : ∀ {world other behind otherBehind}, Related world other → Related behind otherBehind →
    Related { behind with holdings := world.holdings }
      { otherBehind with holdings := other.holdings }
  releaseUnheld : ∀ {world other}, Related world other →
    Related world.releaseUnheld other.releaseUnheld

namespace Sourcing

variable {ε α : Type} {Related : World → World → Prop}

/-- A reading of the state goes on with two states that differ in their surroundings only. -/
theorem get_agree (sourcing : Sourcing Related) {next otherNext : World → HostM ε α}
    (nexts : ∀ world around, Related world (world.within around) →
      AgreeFrom Related world (world.within around) (next world)
        (otherNext (world.within around))) :
    Agree Related (MonadState.get >>= next) (MonadState.get >>= otherNext) := by
  apply Agree.get
  intro world other related
  have sameStore : other = world.within other.surroundings := sourcing.sameStore related
  rw [sameStore] at related ⊢
  exact nexts world other.surroundings related

theorem modify_agree (sourcing : Sourcing Related) {change : World → World}
    (bookkeeping : Bookkeeping change) :
    Agree Related (modify change : HostM ε Unit) (modify change) :=
  .modify fun _ _ => sourcing.books bookkeeping

theorem readClock_agree (sourcing : Sourcing Related) :
    Agree Related (readClock : HostM ε Instant) readClock := by
  refine sourcing.get_agree fun world around related => ?_
  exact (AgreeFrom.modify (sourcing.books .tick related)).bind fun _ => .pure _

theorem keeping_agree (sourcing : Sourcing Related) (more : Holdings)
    {first second : HostM ε α} (agree : Agree Related first second) :
    Agree Related (keeping more first) (keeping more second) := by
  intro world other related
  obtain ⟨sameOutcome, behind⟩ := agree _ _ (sourcing.hold more related)
  rw [AgreeFrom, HostM.eval_keeping, HostM.eval_keeping]
  exact ⟨sameOutcome, sourcing.releaseUnheld (sourcing.letGo related behind)⟩

/-! ## Document sources -/

theorem fileIsCurrent_agree (sourcing : Sourcing Related) (id : DescriptorId)
    (backing : Backing) : Agree Related (fileIsCurrent id backing) (fileIsCurrent id backing) := by
  intro world other related
  unfold fileIsCurrent
  refine .ite Iff.rfl (fun _ => .pure related _) fun _ => ?_
  refine (sourcing.readClock_agree.bind fun now => ?_) _ _ related
  clear related world other
  intro world other related
  refine .ite Iff.rfl (fun _ => .pure related _) fun _ => ?_
  refine ((sourcing.modify_agree (.modifyDescriptor id _)).bind fun _ => ?_) _ _ related
  refine sourcing.get_agree fun world around related => ?_
  rw [World.within_files]
  cases world.files.modified backing.path with
  | ok modified => exact .pure related _
  | error _ => exact .pure related _

theorem judgeEach_agree (sourcing : Sourcing Related)
    {check : DescriptorId → List DescriptorId → HostM DocumentError (Bool × List DescriptorId)}
    (checks : ∀ id visited, Agree Related (check id visited) (check id visited))
    (ids visited : List DescriptorId) :
    Agree Related (judgeEach check ids visited) (judgeEach check ids visited) := by
  induction ids generalizing visited with
  | nil => exact .pure _
  | cons id rest ih =>
      unfold judgeEach
      refine sourcing.get_agree fun world around related => ?_
      refine .ite Iff.rfl (fun _ => .pure related _) fun _ => ?_
      refine (checks id visited).bind (fun outcome => ?_) _ _ related
      obtain ⟨valid, visited⟩ := outcome
      cases valid with
      | true => exact ih visited
      | false => exact .pure _

theorem judgeWithin_agree (sourcing : Sourcing Related) (levels : Nat)
    (id : DescriptorId) (visited : List DescriptorId) :
    Agree Related (judgeWithin levels id visited) (judgeWithin levels id visited) := by
  induction levels generalizing id visited with
  | zero =>
      unfold judgeWithin
      exact sourcing.get_agree fun world around related => .throw related _
  | succ levels ih =>
      unfold judgeWithin
      refine sourcing.get_agree fun world around related => ?_
      refine .ite Iff.rfl (fun _ => .pure related _) fun _ => ?_
      refine .ite Iff.rfl (fun _ => .pure related _) fun _ => ?_
      refine (sourcing.judgeEach_agree ih _ _).bind (fun outcome => ?_) _ _ related
      obtain ⟨sound, visited⟩ := outcome
      have settled (current : Bool) :
          let settle : HostM DocumentError (Bool × List DescriptorId) :=
            if (!current) = true then do
              modify fun world => world.invalidate id
              pure (current, visited)
            else pure (current, visited)
          Agree Related settle settle := by
        cases current with
        | true => exact .pure _
        | false => exact (sourcing.modify_agree (.invalidate id)).bind fun _ => .pure _
      cases sound with
      | false => exact settled false
      | true =>
          refine sourcing.get_agree fun world around related => ?_
          rw [World.within_descriptors]
          cases (world.descriptors.get id).backing with
          | none => exact settled true _ _ related
          | some backing => exact (sourcing.fileIsCurrent_agree id backing).bind settled _ _ related

theorem isValid_agree (sourcing : Sourcing Related) (id : DescriptorId) :
    Agree Related (isValid id) (isValid id) :=
  (sourcing.judgeWithin_agree _ id []).bind fun outcome => .pure outcome.1

theorem newDescriptor_agree (sourcing : Sourcing Related)
    (name partition tag text : String) :
    Agree Related (newDescriptor name partition tag text : HostM ε DescriptorId)
      (newDescriptor name partition tag text) := by
  unfold newDescriptor
  refine sourcing.readClock_agree.bind fun timestamp => ?_
  refine sourcing.get_agree fun world around related => ?_
  refine (AgreeFrom.set (sourcing.books (.addDescriptor _) related)).bind fun _ => ?_
  exact .pure _

theorem installForm_agree (sourcing : Sourcing Related) (id : DescriptorId)
    (form : Option (String × ExecutableId)) :
    Agree Related (installForm id form : HostM ε Unit) (installForm id form) := by
  cases form with
  | none => exact .pure _
  | some form => exact sourcing.modify_agree (.fillSlot id form.1 form.2)

theorem sweep_agree (sourcing : Sourcing Related) :
    Agree Related (modify World.sweep : HostM ε Unit) (modify World.sweep) :=
  .modify fun _ _ related => sourcing.releaseUnheld (sourcing.books .retainValid related)

theorem seedDocument_agree (sourcing : Sourcing Related) (name text tag : String)
    (form : Option (String × ExecutableId)) :
    Agree Related (seedDocument name text tag form : HostM ε DescriptorId)
      (seedDocument name text tag form) := by
  unfold seedDocument
  refine sourcing.get_agree fun world around related => ?_
  dsimp only [World.kept?, World.within_source, World.within_descriptors]
  split
  · rename_i id _
    exact (sourcing.installForm_agree id form).bind (fun _ => .pure id) _ _ related
  · refine (sourcing.sweep_agree.bind fun _ => ?_) _ _ related
    refine Agree.bind (sourcing.newDescriptor_agree name _ tag text) fun id => ?_
    refine (sourcing.installForm_agree id form).bind fun _ => ?_
    exact (sourcing.modify_agree (.modifyDocuments _)).bind fun _ => .pure id

theorem readDocument_agree (sourcing : Sourcing Related) (settings : FileSettings)
    (name : String) :
    Agree Related (readDocument settings name) (readDocument settings name) := by
  unfold readDocument
  refine sourcing.get_agree fun world around related => ?_
  dsimp only [World.within_files]
  cases resolve? settings world.files name with
  | none => exact .throw related _
  | some path =>
      refine ((Agree.ofExcept _).bind fun modified => ?_) _ _ related
      refine (Agree.ofExcept _).bind fun text => ?_
      refine sourcing.readClock_agree.bind fun lastChecked => ?_
      refine sourcing.get_agree fun world around related => ?_
      refine (AgreeFrom.set (sourcing.books (.addDescriptor _) related)).bind fun _ => ?_
      exact .pure _

theorem fetchDocument_agree (sourcing : Sourcing Related) (name : String) :
    Agree Related (fetchDocument name) (fetchDocument name) := by
  unfold fetchDocument
  refine sourcing.get_agree fun world around related => ?_
  have forgotten : Agree Related
      (modify fun world => world.forget name : HostM DocumentError Unit)
      (modify fun world => world.forget name) :=
    .modify fun _ _ related =>
      sourcing.releaseUnheld (sourcing.books (.modifyDocuments _) related)
  dsimp only [World.kept?, World.within_source, World.within_descriptors]
  refine Agree.bind ?_ (fun valid? => ?_) _ _ related
  · split
    · rename_i id _
      refine (sourcing.isValid_agree id).bind fun valid => ?_
      cases valid <;> exact .pure _
    · exact .pure _
  · cases valid? with
    | some id => exact .pure id
    | none =>
        cases world.source.map Source.kind with
        | none => exact forgotten.bind fun _ => .throw _
        | some kind =>
            cases kind with
            | memory => exact forgotten.bind fun _ => .throw _
            | files settings =>
                refine (sourcing.readDocument_agree settings name).bind fun fresh => ?_
                refine sourcing.sweep_agree.bind fun _ => ?_
                exact (sourcing.modify_agree (.modifyDocuments _)).bind fun _ => .pure fresh

end Sourcing

end DocumentHost
