import DocumentHost.Proofs.Host.Obtaining
import DocumentHost.Proofs.Host.Sourcing
import DocumentHost.Proofs.Language.Answering

/-!
# Compiling does not look around

Neither a document source nor the compiler looks at the surroundings of documents, but for
the answers to the questions that the compiler asks.  Two states that differ in their
surroundings only and answer alike therefore get the same compiled forms, and differ in their
surroundings only afterwards.
-/

namespace DocumentHost

/-- A relation between states that differ in their surroundings only and answer alike for
the tags of a kind.  It lasts when executables of a kind are made, and what compiling gives is
of that kind. -/
structure Composing (Related : World → World → Prop) (registry : RegistryId)
    (asked : String → Prop) (Good : String → List Segment → Prop) : Prop where
  sourcing : Sourcing Related
  answering : Answering Related registry asked
  addExecutable : ∀ {world other} (executable : Executable),
    Good executable.documentName executable.segments → Related world other →
      Related { world with executables := (world.executables.add executable).2 }
        { other with executables := (other.executables.add executable).2 }
  compiles : ∀ (setting : Setting) document isScriptlet segments, setting.registry = registry →
    Gives Related (Good document.name) (compileSegments setting document isScriptlet segments)

/-- What the compiler asks for a document is answered alike, as far as its parser asks. -/
structure AsksAlike (Related : World → World → Prop) (setting : Setting) (document : Document)
    (asked : String → Prop) : Prop where
  starts : setting.options.parser ≠ textParser → StartsAlike Related setting document asked
  owns : setting.options.parser = scriptletsParser →
    Answering.Owns asked setting.options document

/-- The compiled form of a descriptor; it is made if there is none. -/
def formOf (setting : Setting) (id : DescriptorId) : HostM ParsingError ExecutableId := do
  let world ← get
  let key := setting.options.compileKey
  match (world.descriptors.get id).slots.get? key with
  | some present => return present
  | none =>
      let executable ← newExecutable setting (world.documentOf id)
      let world ← get
      modify fun world => (world.fillSlot id key executable).2
      return (world.fillSlot id key executable).1

theorem obtainExecutable_eq (setting : Setting) (name : String) :
    obtainExecutable setting name = (do
      if !setting.sourced || (← get).source.isNone then throw (.needsSource name)
      let id ← (fetchDocument name).convert ParsingError.document
      formOf setting id) :=
  rfl

namespace Composing

variable {Related : World → World → Prop} {setting : Setting} {asked : String → Prop}
  {Good : String → List Segment → Prop}

theorem makeExecutable_agree (composing : Composing Related setting.registry asked Good)
    (document : Document) {segments : List Segment} (good : Good document.name segments) :
    Agree Related (makeExecutable setting document segments)
      (makeExecutable setting document segments) := by
  unfold makeExecutable
  refine composing.sourcing.readClock_agree.bind fun lastUsed => ?_
  have added :
      let made : Executable :=
        { documentName := document.name
          partition := document.partition
          timestamp := document.timestamp
          setting
          segments
          lastUsed }
      let add : HostM ParsingError ExecutableId := do
        let world ← MonadState.get
        set { world with executables := (world.executables.add made).2 }
        return (world.executables.add made).1
      Agree Related add add := by
    refine composing.sourcing.get_agree fun world around related => ?_
    refine (AgreeFrom.set ?_).bind fun _ => .pure _
    exact composing.addExecutable _ good related
  dsimp only
  split
  · exact ((composing.answering.prepareSegments_agree segments).convert _).bind fun _ => added
  · exact added

theorem seedInFlow_agree (composing : Composing Related setting.registry asked Good)
    (document : Document) (name code : String) {tag : String} (isAsked : asked tag) :
    Agree Related (seedInFlow setting document name code tag)
      (seedInFlow setting document name code tag) := by
  unfold seedInFlow
  have inFlow : Composing Related (setting.forInFlow tag).registry asked Good := composing
  have gives (inFlowDocument : Document) :
      Gives Related (Good inFlowDocument.name)
        (programSegments (setting.forInFlow tag) inFlowDocument) :=
    .get fun world other related =>
      composing.compiles (setting.forInFlow tag) inFlowDocument false _ rfl world other related
  refine (inFlow.answering.programSegments_agree (.inFlow setting _ isAsked)).bind_giving
    (gives _) fun segments good => ?_
  refine (inFlow.makeExecutable_agree _ good).bind fun executable => ?_
  refine (composing.sourcing.seedDocument_agree name code tag _).bind fun seeded => ?_
  apply composing.sourcing.keeping_agree
  refine composing.sourcing.get_agree fun world around related => ?_
  refine .ite Iff.rfl (fun _ => ?_) fun _ => .pure related ()
  refine (((composing.sourcing.fetchDocument_agree document.name).convert _).attempt.bind
    fun parent => ?_) _ _ related
  cases parent with
  | ok parent => exact composing.sourcing.modify_agree (.linkDependent parent seeded)
  | error _ => exact .pure ()

theorem newExecutable_agree (composing : Composing Related setting.registry asked Good)
    {document : Document} (asks : AsksAlike Related setting document asked) :
    Agree Related (newExecutable setting document) (newExecutable setting document) := by
  have made {compile : HostM ParsingError (List Segment)} (agree : Agree Related compile compile)
      (gives : Gives Related (Good document.name) compile) :
      Agree Related (compile >>= makeExecutable setting document)
        (compile >>= makeExecutable setting document) :=
    agree.bind_giving gives fun _ good => composing.makeExecutable_agree document good
  have compiles (isScriptlet : Bool) (segments : List RawSegment) :=
    composing.compiles setting document isScriptlet segments rfl
  have seeds (name code tag : String) (isAsked : asked tag) :=
    composing.seedInFlow_agree document name code isAsked
  unfold newExecutable
  dsimp only
  by_cases isProgram : setting.options.parser = programParser
  · rw [if_pos isProgram]
    have starts := asks.starts (by rw [isProgram]; decide)
    exact made (composing.answering.programSegments_agree starts)
      (.get fun world other related => compiles false _ world other related)
  rw [if_neg isProgram]
  by_cases isText : setting.options.parser = textParser
  · rw [if_pos isText]
    refine made (composing.answering.compileSegments_agree document false ?_) (compiles false _)
    exact List.forall_mem_singleton.2 nofun
  rw [if_neg isText]
  by_cases isScriptlets : setting.options.parser = scriptletsParser
  · rw [if_pos isScriptlets]
    have starts := asks.starts isText
    have owns := asks.owns isScriptlets
    refine made (composing.answering.scriptletSegments_agree seeds starts owns) ?_
    refine .bind (composing.answering.splitDocument_agree seeds starts owns) fun raw => ?_
    exact .get fun world other related => compiles true _ world other related
  · rw [if_neg isScriptlets]
    exact .throw _

/-- Where the descriptor is the same, so is its compiled form. -/
theorem formOf_agree (composing : Composing Related setting.registry asked Good)
    (id : DescriptorId) {world other : World} (related : Related world other)
    (asks : AsksAlike Related setting (world.documentOf id) asked) :
    AgreeFrom Related world other (formOf setting id) (formOf setting id) := by
  have sameStore : other = world.within other.surroundings :=
    composing.sourcing.sameStore related
  rw [sameStore] at related ⊢
  refine .get ?_
  dsimp only [World.within_descriptors]
  rw [show (world.within other.surroundings).documentOf id = world.documentOf id from rfl]
  cases (world.descriptors.get id).slots.get? setting.options.compileKey with
  | some present => exact .pure related present
  | none =>
      refine ((composing.newExecutable_agree asks).bind fun executable => ?_) _ _ related
      refine composing.sourcing.get_agree fun world around related => ?_
      have same : ((world.within around).fillSlot id setting.options.compileKey executable).1 =
          (world.fillSlot id setting.options.compileKey executable).1 := by
        unfold World.fillSlot
        rw [World.within_descriptors]
        split <;> rfl
      rw [same]
      exact ((composing.sourcing.modify_agree (.fillSlot id _ executable)).bind fun _ => .pure _)
        _ _ related

end Composing

end DocumentHost
