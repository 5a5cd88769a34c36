import DocumentHost.Proofs.Host.Planting
import DocumentHost.Proofs.Language.Swaying

/-!
# Compiling side by side

Two states may differ in which context is current and in what ran last in it.  If in neither
of them what ran last sways anything that a document asks for, the document is fetched and
compiled alike in both; and it is compiled to the same segments even if other documents have
come and gone in between.
-/

namespace DocumentHost

open World

namespace World

/-! ## States that answer as they did -/

/-- A state answers as an earlier one did: with the same adapters, of which the same has run
last, and with a source if there was one. -/
structure SameTongue (origin world : World) : Prop where
  adapters : SameAdapters origin world
  lastUsed : world.lastUsed = origin.lastUsed
  sourced : world.source.isNone = origin.source.isNone

namespace SameTongue

variable {origin world after : World}

theorem refl (world : World) : SameTongue world world :=
  ⟨⟨rfl, rfl⟩, rfl, rfl⟩

theorem trans (first : SameTongue origin world) (second : SameTongue world after) :
    SameTongue origin after :=
  ⟨first.adapters.trans second.adapters, second.lastUsed.trans first.lastUsed,
    second.sourced.trans first.sourced⟩

/-- What touches neither adapters nor contexts nor the source. -/
theorem of_eq (adapters : after.adapters = world.adapters)
    (registries : after.registries = world.registries) (current : after.current = world.current)
    (contexts : after.contexts = world.contexts)
    (sourced : after.source.isNone = world.source.isNone) : SameTongue world after := by
  refine ⟨⟨adapters.symm, registries.symm⟩, ?_, sourced⟩
  rw [World.lastUsed, World.lastUsed, current, contexts]

theorem bookkeeping {change : World → World} (bookkeeping : Bookkeeping change) (world : World) :
    SameTongue world (change world) :=
  of_eq (bookkeeping.adapters world) (bookkeeping.registries world)
    (congrArg Surroundings.current (bookkeeping.surroundings_eq world))
    (congrArg Surroundings.contexts (bookkeeping.surroundings_eq world))
    (bookkeeping.sourced world)

/-- The current context is held, so that no release touches it. -/
theorem releaseUnheld (world : World) : SameTongue world world.releaseUnheld := by
  have only := ReleasesOnly.releaseUnheld world
  have current : world.releaseUnheld.current = world.current := by rw [only.rest]
  refine ⟨?_, ?_, ?_⟩
  · rw [only.rest]
    exact ⟨rfl, rfl⟩
  · rw [World.lastUsed, World.lastUsed, current]
    cases isCurrent : world.current with
    | none => rfl
    | some id =>
        have held : id ∈ world.heldContexts := by simp [heldContexts, isCurrent]
        rw [Option.bind_some, Option.bind_some, only.spares id held]
  · rw [only.rest]

theorem preferred (same : SameTongue origin world) (candidates : List AdapterId) :
    world.preferred candidates = origin.preferred candidates := by
  rw [World.preferred, World.preferred, same.lastUsed, same.adapters.foremost]

theorem adapterForTag (same : SameTongue origin world) (registry : RegistryId) (tag : String) :
    world.adapterForTag registry tag = origin.adapterForTag registry tag := by
  rw [adapterForTag_eq, adapterForTag_eq, same.preferred, same.adapters.declaring]

theorem initialTag (same : SameTongue origin world) (setting : Setting) (document : Document) :
    world.initialTag setting document = origin.initialTag setting document := by
  simp only [World.initialTag, adapterForExtension_eq, same.preferred, same.adapters.declaring,
    Languages.profile, same.adapters.1]

/-- Whether anything is swayed depends on the answers. -/
theorem unswayed (same : SameTongue origin world) {setting : Setting} {document : Document}
    (unswayed : origin.Unswayed setting document) : world.Unswayed setting document := by
  have sways (candidates : List AdapterId) (sways : world.Sways candidates) :
      origin.Sways candidates := by
    rwa [Sways, same.lastUsed, same.adapters.foremost] at sways
  constructor
  · intro parser chosen extension found swayed
    rw [← same.adapters.declaring] at swayed
    exact unswayed.extension parser chosen extension found (sways _ swayed)
  · intro tag asks swayed
    rw [← same.adapters.declaring] at swayed
    refine unswayed.tags tag ?_ (sways _ swayed)
    cases asks with
    | initial parser isTag =>
        rw [same.initialTag] at isTag
        exact .initial parser isTag
    | own parser found member isTag => exact .own parser found member isTag

end SameTongue

/-! ## Two states that answer alike -/

/-- Two states answer as two earlier ones did. -/
structure Concordant (origin otherOrigin world other : World) : Prop where
  tongue : SameTongue origin world
  otherTongue : SameTongue otherOrigin other

/-- Two states that differ in their surroundings only answer as two earlier ones did. -/
structure SideBySide (origin otherOrigin world other : World) : Prop
    extends Concordant origin otherOrigin world other where
  sameStore : SameStore world other

theorem SameStore.sameAdapters {world other : World} (same : SameStore world other) :
    SameAdapters world other := by
  rw [same]
  exact ⟨rfl, rfl⟩

theorem SameStore.sourced {world other : World} (same : SameStore world other) :
    other.source.isNone = world.source.isNone := by
  rw [same, within_source]

theorem ReleasesOnly.sameStore {spared : ContextId → Prop} {world changed : World}
    (only : ReleasesOnly spared world changed) : SameStore world changed := by
  rw [only.rest]
  rfl

namespace SideBySide

variable {origin otherOrigin world other behind otherBehind : World}

theorem refl (same : SameStore origin otherOrigin) :
    SideBySide origin otherOrigin origin otherOrigin :=
  ⟨⟨.refl origin, .refl otherOrigin⟩, same⟩

theorem step (sideBySide : SideBySide origin otherOrigin world other)
    (tongue : SameTongue world behind) (otherTongue : SameTongue other otherBehind)
    (sameStore : SameStore behind otherBehind) :
    SideBySide origin otherOrigin behind otherBehind :=
  ⟨⟨sideBySide.tongue.trans tongue, sideBySide.otherTongue.trans otherTongue⟩, sameStore⟩

/-- A document source does the same in both states. -/
theorem sourcing (origin otherOrigin : World) : Sourcing (SideBySide origin otherOrigin) where
  sameStore sideBySide := sideBySide.sameStore
  books {world other change} bookkeeping sideBySide := by
    refine sideBySide.step (.bookkeeping bookkeeping world) (.bookkeeping bookkeeping other) ?_
    rw [SameStore, bookkeeping.surroundings_eq other, ← bookkeeping.within]
    exact congrArg change sideBySide.sameStore
  hold more sideBySide := by
    refine sideBySide.step (.of_eq rfl rfl rfl rfl rfl) (.of_eq rfl rfl rfl rfl rfl) ?_
    exact (SameStore.hold _ _).symm.trans (sideBySide.sameStore.trans (.hold _ _))
  letGo _ sideBySide := by
    refine sideBySide.step (.of_eq rfl rfl rfl rfl rfl) (.of_eq rfl rfl rfl rfl rfl) ?_
    exact (SameStore.hold _ _).symm.trans (sideBySide.sameStore.trans (.hold _ _))
  releaseUnheld {world other} sideBySide := by
    refine sideBySide.step (.releaseUnheld world) (.releaseUnheld other) ?_
    have only := (ReleasesOnly.releaseUnheld world).sameStore
    have otherOnly := (ReleasesOnly.releaseUnheld other).sameStore
    exact only.symm.trans (sideBySide.sameStore.trans otherOnly)

end SideBySide

end World

/-- The answers of two states agree if those of the earlier ones did. -/
theorem Answering.of_concordant {Related : World → World → Prop} {origin otherOrigin : World}
    {registry : RegistryId} {asked : String → Prop}
    (concordant : ∀ {world other}, Related world other →
      Concordant origin otherOrigin world other)
    (adapters : SameAdapters origin otherOrigin)
    (sourced : otherOrigin.source.isNone = origin.source.isNone)
    (answers : ∀ tag, asked tag →
      origin.adapterForTag registry tag = otherOrigin.adapterForTag registry tag)
    (noteAll : ∀ {world other} texts, Related world other →
      Related (world.noteAll texts) (other.noteAll texts)) :
    Answering Related registry asked where
  adapters related := (concordant related).tongue.adapters.symm.trans
    (adapters.trans (concordant related).otherTongue.adapters)
  sourced related := (concordant related).otherTongue.sourced.trans
    (sourced.trans (concordant related).tongue.sourced.symm)
  answers related tag isAsked := by
    rw [(concordant related).tongue.adapterForTag, (concordant related).otherTongue.adapterForTag,
      answers tag isAsked]
  noteAll := noteAll

namespace World

namespace Concordant

variable {origin otherOrigin world other : World}

theorem noteAll (texts : List String) (concordant : Concordant origin otherOrigin world other) :
    Concordant origin otherOrigin (world.noteAll texts) (other.noteAll texts) :=
  ⟨concordant.tongue.trans (.of_eq rfl rfl rfl rfl rfl),
    concordant.otherTongue.trans (.of_eq rfl rfl rfl rfl rfl)⟩

/-- Where neither state is swayed, both answer what the compilation of a document asks for
alike. -/
theorem asksAlike {Related : World → World → Prop} {setting : Setting} {document : Document}
    (concordant : ∀ {world other}, Related world other →
      Concordant origin otherOrigin world other)
    (adapters : SameAdapters origin otherOrigin) (unswayed : origin.Unswayed setting document)
    (otherUnswayed : otherOrigin.Unswayed setting document) :
    AsksAlike Related setting document (origin.Asks setting document) where
  starts parser := {
    same related := by
      rw [(concordant related).tongue.initialTag, (concordant related).otherTongue.initialTag,
        adapters.initialTag_of_unswayed parser unswayed otherUnswayed]
    asked related tag isTag := by
      rw [(concordant related).tongue.initialTag] at isTag
      exact .initial parser isTag }
  owns parser _ found _ member _ isTag := .own parser found member isTag

theorem answers_of_unswayed {setting : Setting} {document : Document}
    (adapters : SameAdapters origin otherOrigin) (unswayed : origin.Unswayed setting document)
    (otherUnswayed : otherOrigin.Unswayed setting document) {tag : String}
    (asks : origin.Asks setting document tag) :
    origin.adapterForTag setting.registry tag = otherOrigin.adapterForTag setting.registry tag := by
  refine adapters.adapterForTag_of_unswayed (unswayed.tags tag asks) (otherUnswayed.tags tag ?_)
  cases asks with
  | initial parser isTag =>
      have same := adapters.initialTag_of_unswayed parser unswayed otherUnswayed
      exact .initial parser (same.trans isTag)
  | own parser found member isTag => exact .own parser found member isTag

end Concordant

namespace SideBySide

variable {origin otherOrigin world other : World}

theorem composing (same : SameStore origin otherOrigin) {registry : RegistryId}
    {asked : String → Prop}
    (answers : ∀ tag, asked tag →
      origin.adapterForTag registry tag = otherOrigin.adapterForTag registry tag) :
    Composing (SideBySide origin otherOrigin) registry asked fun _ _ => True where
  sourcing := sourcing origin otherOrigin
  answering := .of_concordant toConcordant same.sameAdapters same.sourced answers
    fun texts sideBySide =>
      { toConcordant := sideBySide.toConcordant.noteAll texts
        sameStore := (SameStore.noteAll _ _).symm.trans
          (sideBySide.sameStore.trans (.noteAll _ _)) }
  addExecutable executable _ sideBySide := by
    refine sideBySide.step (.of_eq rfl rfl rfl rfl rfl) (.of_eq rfl rfl rfl rfl rfl) ?_
    rw [sideBySide.sameStore]
    rfl
  compiles _ _ _ _ _ _ _ _ _ _ := trivial

/-- Where neither state is swayed, a document is fetched and compiled alike in both. -/
theorem obtainExecutable (same : SameStore world other) {setting : Setting} {name : String}
    (unswayed : ∀ id fetched, (fetchDocument name).eval world = (.ok id, fetched) →
      world.Unswayed setting (fetched.documentOf id) ∧
        other.Unswayed setting (fetched.documentOf id)) :
    AgreeFrom (SideBySide world other) world other (obtainExecutable setting name)
      (obtainExecutable setting name) := by
  have sideBySide := SideBySide.refl same
  have sourced : (!setting.sourced || other.source.isNone) =
      (!setting.sourced || world.source.isNone) := by rw [same.sourced]
  rw [obtainExecutable_eq]
  refine .get ?_
  rw [sourced]
  refine .ite Iff.rfl (fun _ => .throw sideBySide _) fun _ => ?_
  obtain ⟨sameOutcome, behind⟩ :=
    (sourcing world other).fetchDocument_agree name world other sideBySide
  rcases fetched : (fetchDocument name).eval world with ⟨error | id, between⟩
  · rcases otherFetched : (fetchDocument name).eval other with ⟨outcome, otherBetween⟩
    rw [fetched, otherFetched] at sameOutcome behind
    dsimp only at sameOutcome behind
    subst sameOutcome
    rw [AgreeFrom, HostM.eval_bind_of_error (HostM.eval_convert_of_error fetched),
      HostM.eval_bind_of_error (HostM.eval_convert_of_error otherFetched)]
    exact ⟨rfl, behind⟩
  · rcases otherFetched : (fetchDocument name).eval other with ⟨outcome, otherBetween⟩
    rw [fetched, otherFetched] at sameOutcome behind
    dsimp only at sameOutcome behind
    subst sameOutcome
    rw [AgreeFrom, HostM.eval_bind_of_ok (HostM.eval_convert_of_ok fetched),
      HostM.eval_bind_of_ok (HostM.eval_convert_of_ok otherFetched)]
    obtain ⟨here, there⟩ := unswayed id between fetched
    have composes : Composing (SideBySide world other) setting.registry
        (world.Asks setting (between.documentOf id)) fun _ _ => True :=
      composing same fun tag asks =>
        Concordant.answers_of_unswayed same.sameAdapters here there asks
    exact composes.formOf_agree id behind
      (Concordant.asksAlike toConcordant same.sameAdapters here there)

end SideBySide

end World

/-! ## Whatever else has been done to documents

Segments are compiled without a look at other documents.  In-flow code is put into the source
meanwhile, but nothing depends on what was there before. -/

/-- The segments that a document is compiled to, with the parser that the options name. -/
def documentSegments (setting : Setting) (document : Document) :
    HostM ParsingError (List Segment) :=
  if setting.options.parser = programParser then programSegments setting document
  else if setting.options.parser = textParser then textSegments setting document
  else if setting.options.parser = scriptletsParser then scriptletSegments setting document
  else throw (.unknownParser setting.options.parser)

theorem newExecutable_eq (setting : Setting) (document : Document) :
    newExecutable setting document =
      documentSegments setting document >>= makeExecutable setting document := by
  unfold newExecutable documentSegments
  dsimp only
  split
  · rfl
  split
  · rfl
  split
  · rfl
  · rfl

theorem World.Form.of_newExecutable {setting : Setting} {document : Document}
    {world after : World} {executable : ExecutableId}
    (made : (newExecutable setting document).eval world = (.ok executable, after)) :
    ∃ segments, after.Form executable setting document segments := by
  rw [newExecutable_eq] at made
  obtain ⟨segments, _, -, makes⟩ := HostM.eval_bind_eq_ok_iff.1 made
  exact ⟨segments, .of_makeExecutable makes⟩

/-- Whether programs can be prepared depends on the programs only. -/
theorem prepareSegments_alike (segments : List Segment) :
    Agree (fun _ _ => True) (prepareSegments segments) (prepareSegments segments) := by
  induction segments with
  | nil => exact .pure ()
  | cons segment rest ih =>
      cases segment with
      | literal => exact ih
      | program text tag position adapter program =>
          exact (Agree.ofReported _ fun _ _ _ => trivial).bind fun _ => ih

/-- Whether an executable is made depends on the programs only. -/
theorem makeExecutable_alike (setting : Setting) (document : Document) (segments : List Segment)
    (world other : World) :
    (∃ executable otherExecutable,
      ((makeExecutable setting document segments).eval world).1 = .ok executable ∧
        ((makeExecutable setting document segments).eval other).1 = .ok otherExecutable) ∨
      ∃ error, ((makeExecutable setting document segments).eval world).1 = .error error ∧
        ((makeExecutable setting document segments).eval other).1 = .error error := by
  rw [makeExecutable, HostM.eval_bind_of_ok (HostM.eval_readClock _),
    HostM.eval_bind_of_ok (HostM.eval_readClock _)]
  dsimp only
  split
  · have same := (prepareSegments_alike segments world.tick other.tick trivial).1
    rw [HostM.eval_bind, HostM.eval_bind, HostM.eval_convert, HostM.eval_convert, ← same]
    cases ((prepareSegments segments).eval world.tick).1 with
    | error error => exact .inr ⟨_, rfl, rfl⟩
    | ok prepared => exact .inl ⟨_, _, rfl, rfl⟩
  · exact .inl ⟨_, _, rfl, rfl⟩

/-- What has been compiled can be put into the source, whatever is there. -/
theorem plantInFlow_succeeds (document : Document) (name code tag : String)
    (form : String × ExecutableId) (world : World) :
    ((plantInFlow document name code tag form).eval world).1 = .ok () := by
  have seeds : ∃ id between,
      (seedDocument name code tag (some form) : HostM ParsingError _).eval world =
        (.ok id, between) := by
    rw [seedDocument, HostM.eval_bind_of_ok (HostM.eval_get _)]
    dsimp only
    split
    · exact ⟨_, _, rfl⟩
    · exact ⟨_, _, rfl⟩
  obtain ⟨seeded, between, isSeeded⟩ := seeds
  rw [plantInFlow_eq, HostM.eval_bind_of_ok isSeeded, attachInFlow, HostM.eval_keeping]
  dsimp only
  rw [HostM.eval_bind_of_ok (HostM.eval_get _), HostM.eval_ite]
  split
  · rw [HostM.eval_bind_of_ok (HostM.eval_attempt _ _)]
    split <;> rfl
  · rfl

/-- In-flow code that is compiled gets into the source wherever its programs can be prepared. -/
theorem plant_agree (setting : Setting) (inFlow : Document) (segments : List Segment)
    (document : Document) (name code tag key : String) :
    Agree (fun _ _ => True)
      (makeExecutable setting inFlow segments >>= fun executable =>
        plantInFlow document name code tag (key, executable))
      (makeExecutable setting inFlow segments >>= fun executable =>
        plantInFlow document name code tag (key, executable)) := by
  intro world other _
  refine ⟨?_, trivial⟩
  rcases makeExecutable_alike setting inFlow segments world other with
    ⟨executable, otherExecutable, made, otherMade⟩ | ⟨error, failed, otherFailed⟩
  · rw [HostM.eval_bind_of_ok (Prod.ext made rfl), HostM.eval_bind_of_ok (Prod.ext otherMade rfl),
      plantInFlow_succeeds, plantInFlow_succeeds]
  · rw [HostM.eval_bind_of_error (Prod.ext failed rfl),
      HostM.eval_bind_of_error (Prod.ext otherFailed rfl)]

namespace World

variable {origin otherOrigin : World} {setting : Setting} {asked : String → Prop}

/-- What is done alike in a state and itself keeps the answers. -/
theorem SameTongue.of_agree {ε α : Type} {action : HostM ε α} {world : World}
    (agree : Agree (SideBySide world world) action action) :
    SameTongue world (action.eval world).2 :=
  (agree world world (.refl (.refl world))).2.tongue

theorem SameTongue.seedInFlow (setting : Setting) (document : Document) (name code tag : String)
    (world : World) :
    SameTongue world ((seedInFlow setting document name code tag).eval world).2 := by
  have composing : Composing (SideBySide world world) setting.registry (fun _ => True)
      fun _ _ => True := SideBySide.composing (.refl world) fun _ _ => rfl
  exact .of_agree (composing.seedInFlow_agree document name code trivial)

namespace Concordant

theorem answering {registry : RegistryId} (adapters : SameAdapters origin otherOrigin)
    (sourced : otherOrigin.source.isNone = origin.source.isNone)
    (answers : ∀ tag, asked tag →
      origin.adapterForTag registry tag = otherOrigin.adapterForTag registry tag) :
    Answering (Concordant origin otherOrigin) registry asked :=
  .of_concordant id adapters sourced answers noteAll

/-- In-flow code gets into the source in both states, or in neither. -/
theorem seedInFlow_agree
    (answering : Answering (Concordant origin otherOrigin) setting.registry asked)
    (document : Document) (name code : String) {tag : String} (isAsked : asked tag) :
    Agree (Concordant origin otherOrigin) (seedInFlow setting document name code tag)
      (seedInFlow setting document name code tag) := by
  intro world other concordant
  refine ⟨?_, concordant.tongue.trans (.seedInFlow setting document name code tag world),
    concordant.otherTongue.trans (.seedInFlow setting document name code tag other)⟩
  have inFlow : Answering (Concordant origin otherOrigin) (setting.forInFlow tag).registry asked :=
    answering
  obtain ⟨sameOutcome, -⟩ := inFlow.programSegments_agree
    (.inFlow setting (document.inFlow name code) isAsked) world other concordant
  have compiles : AgreeFrom (fun _ _ => True) world other
      (programSegments (setting.forInFlow tag) (document.inFlow name code))
      (programSegments (setting.forInFlow tag) (document.inFlow name code)) := ⟨sameOutcome, trivial⟩
  rw [seedInFlow_eq]
  exact (compiles.bind fun segments => plant_agree (setting.forInFlow tag)
    (document.inFlow name code) segments document name code tag _).1

/-- Where the answers are alike, a document is compiled to the same segments. -/
theorem documentSegments_agree
    (answering : Answering (Concordant origin otherOrigin) setting.registry asked)
    {document : Document} (asks : AsksAlike (Concordant origin otherOrigin) setting document asked) :
    Agree (Concordant origin otherOrigin) (documentSegments setting document)
      (documentSegments setting document) := by
  unfold documentSegments
  by_cases isProgram : setting.options.parser = programParser
  · rw [if_pos isProgram]
    exact answering.programSegments_agree (asks.starts (by rw [isProgram]; decide))
  rw [if_neg isProgram]
  by_cases isText : setting.options.parser = textParser
  · rw [if_pos isText]
    exact answering.compileSegments_agree document false (List.forall_mem_singleton.2 nofun)
  rw [if_neg isText]
  by_cases isScriptlets : setting.options.parser = scriptletsParser
  · rw [if_pos isScriptlets]
    exact answering.scriptletSegments_agree
      (fun name code tag isAsked => seedInFlow_agree answering document name code isAsked)
      (asks.starts isText) (asks.owns isScriptlets)
  · rw [if_neg isScriptlets]
    exact .throw _

end Concordant

/-- In two states with the same adapters, neither of them swayed, a document is compiled to the
same segments, whatever documents there are. -/
theorem newExecutable_alike {world other after : World} (adapters : SameAdapters world other)
    (sourced : other.source.isNone = world.source.isNone) {document : Document}
    (unswayed : world.Unswayed setting document) (otherUnswayed : other.Unswayed setting document)
    {executable : ExecutableId}
    (made : (newExecutable setting document).eval world = (.ok executable, after)) :
    ∃ otherExecutable otherAfter,
      (newExecutable setting document).eval other = (.ok otherExecutable, otherAfter) ∧
        (otherAfter.executables.get otherExecutable).segments =
          (after.executables.get executable).segments := by
  have answering := Concordant.answering adapters sourced fun tag asks =>
    Concordant.answers_of_unswayed adapters unswayed otherUnswayed asks
  have asks := Concordant.asksAlike id adapters unswayed otherUnswayed
  obtain ⟨sameOutcome, -⟩ := Concordant.documentSegments_agree answering asks world other
    ⟨.refl world, .refl other⟩
  rw [newExecutable_eq] at made
  obtain ⟨segments, between, compiled, makes⟩ := HostM.eval_bind_eq_ok_iff.1 made
  rcases otherCompiled : (documentSegments setting document).eval other with ⟨outcome, otherBetween⟩
  rw [compiled, otherCompiled] at sameOutcome
  obtain rfl : .ok segments = outcome := sameOutcome
  rw [newExecutable_eq, HostM.eval_bind_of_ok otherCompiled]
  rcases makeExecutable_alike setting document segments between otherBetween with
    ⟨_, otherExecutable, -, otherMade⟩ | ⟨error, failed, -⟩
  · rcases otherMakes : (makeExecutable setting document segments).eval otherBetween with
      ⟨_, otherAfter⟩
    rw [otherMakes] at otherMade
    obtain rfl : _ = Except.ok otherExecutable := otherMade
    exact ⟨otherExecutable, otherAfter, rfl, (Form.of_makeExecutable otherMakes).segments.trans
      (Form.of_makeExecutable makes).segments.symm⟩
  · rw [makes] at failed
    cases failed

end World

end DocumentHost
