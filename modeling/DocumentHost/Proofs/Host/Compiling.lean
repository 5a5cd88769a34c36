import DocumentHost.Proofs.Host.Composing
import DocumentHost.Proofs.Host.Quiet

/-!
# Compiling does not look at contexts

Where no tag and no extension is shared, the adapters alone give the answers that the compiler
asks for, so that neither a document source nor the compiler looks at the contexts of a host.
Two states that differ in their contexts only therefore get the same documents and the same
compiled forms, and differ in their contexts only afterwards.
-/

namespace DocumentHost

theorem Quiet.sameAdapters {change : World → World} (quiet : Quiet change) (world : World) :
    SameAdapters world (change world) :=
  ⟨(quiet.adapters world).symm, (quiet.registries world).symm⟩

/-- A relation between states that differ in their contexts only, in a host that speaks
Mini.  What the compiler and a document source do keeps the relation. -/
structure Compiling (Related : World → World → Prop) : Prop where
  visible : ∀ {world other}, Related world other → other = { world with contexts := other.contexts }
  speaks : ∀ {world other}, Related world other → world.SpeaksMini
  quiet : ∀ {world other change}, Quiet change → Related world other →
    Related (change world) (change other)
  releaseUnheld : ∀ {world other}, Related world other →
    Related world.releaseUnheld other.releaseUnheld
  addExecutable : ∀ {world other} (executable : Executable),
    SpeakMini executable.segments → Related world other →
    Related { world with executables := (world.executables.add executable).2 }
      { other with executables := (other.executables.add executable).2 }

namespace Compiling

variable {ε α : Type} {Related : World → World → Prop}

/-- A reading of the state goes on with two states that differ in their contexts only. -/
theorem get_agree (compiling : Compiling Related) {next otherNext : World → HostM ε α}
    (nexts : ∀ world contexts, Related world { world with contexts } →
      AgreeFrom Related world { world with contexts } (next world)
        (otherNext { world with contexts })) :
    Agree Related (MonadState.get >>= next) (MonadState.get >>= otherNext) := by
  apply Agree.get
  intro world other related
  have visible := compiling.visible related
  rw [visible] at related ⊢
  exact nexts world other.contexts related

theorem modify_agree (compiling : Compiling Related) {change : World → World}
    (quiet : Quiet change) :
    Agree Related (modify change : HostM ε Unit) (modify change) :=
  .modify fun _ _ => compiling.quiet quiet

/-- What is held is the same in both states, as all that is no context. -/
theorem sourcing (compiling : Compiling Related) : Sourcing Related where
  sameStore related := by
    rw [compiling.visible related]
    rfl
  books bookkeeping related := compiling.quiet (.of_bookkeeping bookkeeping) related
  hold {world other} more related := by
    rw [World.holdingMore, World.holdingMore,
      show other.holdings = world.holdings by rw [compiling.visible related]]
    exact compiling.quiet (.hold _) related
  letGo {world other _ _} related behind := by
    rw [show other.holdings = world.holdings by rw [compiling.visible related]]
    exact compiling.quiet (.hold _) behind
  releaseUnheld := compiling.releaseUnheld

theorem sameAdapters (compiling : Compiling Related) {world other : World}
    (related : Related world other) : SameAdapters world other := by
  rw [compiling.visible related]
  exact ⟨rfl, rfl⟩

/-- All answers are those of the adapters. -/
theorem answering (compiling : Compiling Related) (registry : RegistryId) :
    Answering Related registry fun _ => True where
  adapters := compiling.sameAdapters
  sourced related := by rw [compiling.visible related]
  answers related tag _ :=
    (compiling.sameAdapters related).adapterForTag ((compiling.speaks related).univocal _) tag
  noteAll texts := compiling.quiet (.noteAll texts)

theorem compileSegments_gives (compiling : Compiling Related) (setting : Setting)
    (document : Document) (isScriptlet : Bool) (segments : List RawSegment) :
    Gives Related SpeakMini (compileSegments setting document isScriptlet segments) := by
  intro world other related compiled succeeded
  rw [World.eval_compileSegments ((compiling.speaks related).mini _)] at succeeded
  exact World.speakMini_of_mapM succeeded

theorem composing (compiling : Compiling Related) (registry : RegistryId) :
    Composing Related registry (fun _ => True) fun _ => SpeakMini where
  sourcing := compiling.sourcing
  answering := compiling.answering registry
  addExecutable := compiling.addExecutable
  compiles setting document isScriptlet segments _ :=
    compiling.compileSegments_gives setting document isScriptlet segments

theorem startsAlike (compiling : Compiling Related) (setting : Setting) (document : Document) :
    StartsAlike Related setting document fun _ => True where
  same related :=
    ((compiling.sameAdapters related).initialTag ((compiling.speaks related).univocal _)
      document).symm
  asked _ _ _ := trivial

/-- All tags are tags of which the adapters know. -/
theorem owns_true (options : CompileOptions) (document : Document) :
    Answering.Owns (fun _ => True) options document :=
  fun _ _ _ _ _ _ => trivial

theorem asksAlike (compiling : Compiling Related) (setting : Setting) (document : Document) :
    AsksAlike Related setting document fun _ => True :=
  ⟨fun _ => compiling.startsAlike setting document, fun _ => owns_true _ document⟩

/-! ## Fetching -/

theorem readClock_agree (compiling : Compiling Related) :
    Agree Related (readClock : HostM ε Instant) readClock :=
  compiling.sourcing.readClock_agree

theorem keeping_agree (compiling : Compiling Related) (more : Holdings)
    {first second : HostM ε α} (agree : Agree Related first second) :
    Agree Related (keeping more first) (keeping more second) :=
  compiling.sourcing.keeping_agree more agree

theorem fetchDocument_agree (compiling : Compiling Related) (name : String) :
    Agree Related (fetchDocument name) (fetchDocument name) :=
  compiling.sourcing.fetchDocument_agree name

/-! ## Compiling -/

section Settings

variable {setting : Setting}

theorem requireAdapter_agree (compiling : Compiling Related) (place : Place)
    (tag : String) :
    Agree Related (requireAdapter setting place tag) (requireAdapter setting place tag) :=
  (compiling.answering _).requireAdapter_agree place trivial

theorem codeForInclude_agree (compiling : Compiling Related) (place : Place)
    (adapter : AdapterId) (expression : String) :
    Agree Related (codeForInclude place adapter expression)
      (codeForInclude place adapter expression) :=
  (compiling.answering default).codeForInclude_agree place adapter expression

theorem codeForExpression_agree (compiling : Compiling Related) (place : Place)
    (adapter : AdapterId) (expression : String) :
    Agree Related (codeForExpression place adapter expression)
      (codeForExpression place adapter expression) :=
  (compiling.answering default).codeForExpression_agree place adapter expression

theorem seedInFlow_agree (compiling : Compiling Related) (document : Document)
    (name code tag : String) :
    Agree Related (seedInFlow setting document name code tag)
      (seedInFlow setting document name code tag) :=
  (compiling.composing _).seedInFlow_agree document name code trivial

theorem inFlowSegment_agree (compiling : Compiling Related)
    (document : Document) (activeTag : Option String) (number : Nat) (code tag : String)
    (position : Position) :
    Agree Related (inFlowSegment setting document activeTag number code tag position)
      (inFlowSegment setting document activeTag number code tag position) :=
  (compiling.answering _).inFlowSegment_agree
    (fun name code tag _ => compiling.seedInFlow_agree document name code tag)
    (fun _ _ => trivial) number code trivial position

theorem scriptletSegment_agree (compiling : Compiling Related)
    (document : Document) (activeTag : Option String) (number : Nat) (body : List Char)
    (position : Position) :
    Agree Related (scriptletSegment setting document activeTag number body position)
      (scriptletSegment setting document activeTag number body position) :=
  (compiling.answering _).scriptletSegment_agree
    (fun name code tag _ => compiling.seedInFlow_agree document name code tag)
    (fun _ _ => trivial) number fun _ _ => trivial

theorem segmentsOfPieces_agree (compiling : Compiling Related)
    (document : Document) (closing : String) (tag : Option String) (number : Nat)
    (pieces : List Piece) :
    Agree Related (segmentsOfPieces setting document closing tag number pieces)
      (segmentsOfPieces setting document closing tag number pieces) :=
  (compiling.answering _).segmentsOfPieces_agree
    (fun name code tag _ => compiling.seedInFlow_agree document name code tag) closing number
    (fun _ _ => trivial) fun _ _ _ _ => trivial

theorem splitDocument_agree (compiling : Compiling Related)
    (document : Document) :
    Agree Related (splitDocument setting document) (splitDocument setting document) :=
  (compiling.answering _).splitDocument_agree
    (fun name code tag _ => compiling.seedInFlow_agree document name code tag)
    (compiling.startsAlike setting document) (owns_true _ document)

theorem newExecutable_agree (compiling : Compiling Related)
    (document : Document) :
    Agree Related (newExecutable setting document) (newExecutable setting document) :=
  (compiling.composing _).newExecutable_agree (compiling.asksAlike setting document)

/-- A document is taken from the source and compiled alike in both states. -/
theorem obtainExecutable_agree (compiling : Compiling Related) (name : String) :
    Agree Related (obtainExecutable setting name) (obtainExecutable setting name) := by
  rw [obtainExecutable_eq]
  refine compiling.get_agree fun world contexts related => ?_
  refine .ite Iff.rfl (fun _ => .throw related _) fun _ => ?_
  refine (((compiling.fetchDocument_agree name).convert _).bind fun id => ?_) _ _ related
  exact fun _ _ related =>
    (compiling.composing _).formOf_agree id related (compiling.asksAlike setting _)

end Settings

end Compiling

end DocumentHost
